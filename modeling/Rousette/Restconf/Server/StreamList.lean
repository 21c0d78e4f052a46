import Mathlib.Order.Bounds.Basic
import Rousette.Restconf.LocationPaths
import Rousette.Restconf.Server.Streams
import Rousette.Restconf.StreamUris

/-!
# The list of streams

sysrepo asks the server for the list of its streams whenever somebody reads it, and
`notificationStreamList` of `restconf/NotificationStream.cpp` creates the one entry.  Its locations
have a scheme of their own, which `replaceStreamLocations` replaces before a client gets them.
This module tells what is in the list, and that the stream is found at its locations.
-/

namespace Rousette.Restconf.Server

open Library Libyang Locations

/-! ## Replay -/

/-- `sysrepo::ModuleReplaySupport` -/
structure ModuleReplaySupport (T : Type) where
  enabled : Bool
  earliestNotification : Option T

/-- `SysrepoReplayInfo` -/
structure SysrepoReplayInfo (T : Type) where
  enabled : Bool
  earliestNotification : Option T

section Replay

variable {T : Type} [LinearOrder T]
  (getModuleReplaySupport : Str → Except Sysrepo.ErrorWithCode (ModuleReplaySupport T))

/-- One iteration of the loop in `sysrepoReplayInfo`. -/
def SysrepoReplayInfo.add (info : SysrepoReplayInfo T) (replay : ModuleReplaySupport T) :
    SysrepoReplayInfo T where
  enabled := info.enabled || replay.enabled
  earliestNotification :=
    match replay.earliestNotification, info.earliestNotification with
    | none, globalEarliest => globalEarliest
    | some earliest, none => some earliest
    | some earliest, some globalEarliest => some (min earliest globalEarliest)

/-- The loop in `sysrepoReplayInfo`. -/
def sysrepoReplayInfoFrom :
    SysrepoReplayInfo T → List YangLibraryModule → Except Exception (SysrepoReplayInfo T)
  | info, [] => .ok info
  | info, mod :: modules =>
      if canBeSubscribed mod then do
        let replay ← raiseSysrepo (getModuleReplaySupport mod.name)
        sysrepoReplayInfoFrom (info.add replay) modules
      else sysrepoReplayInfoFrom info modules

/-- `sysrepoReplayInfo` -/
def sysrepoReplayInfo (modules : List YangLibraryModule) :
    Except Exception (SysrepoReplayInfo T) :=
  sysrepoReplayInfoFrom getModuleReplaySupport ⟨false, none⟩ modules

/-- What sysrepo says about the modules which can be subscribed to. -/
def ReplaySupport (modules : List YangLibraryModule) (replay : ModuleReplaySupport T) : Prop :=
  ∃ mod ∈ modules, canBeSubscribed mod = true ∧ getModuleReplaySupport mod.name = .ok replay

/-- Some module replays its notifications. -/
def ReplayEnabled (modules : List YangLibraryModule) : Prop :=
  ∃ replay, ReplaySupport getModuleReplaySupport modules replay ∧ replay.enabled = true

/-- The times of the earliest notifications of the modules. -/
def EarliestTimes (modules : List YangLibraryModule) : Set T :=
  {time | ∃ replay, ReplaySupport getModuleReplaySupport modules replay ∧
    replay.earliestNotification = some time}

end Replay

/-! ## The entry of the stream -/

/-- The path of the entry. -/
def streamPath : LocationPath :=
  [⟨str "restconf-state", none⟩, ⟨str "streams", none⟩,
    ⟨str "stream", some (str "name", str "NETCONF")⟩]

/-- The path of a leaf in the entry. -/
def streamLeafPath (name : String) : LocationPath := streamPath ++ [⟨str name, none⟩]

/-- The value of the leaf `encoding`. -/
def encodingText : DataFormat → Str
  | .json => str "json"
  | .xml => str "xml"

/-- The path of the location for an encoding. -/
def accessPath (encoding : DataFormat) : LocationPath :=
  streamPath ++ [⟨str "access", some (str "encoding", encodingText encoding)⟩,
    ⟨str "location", none⟩]

example : LocationPath.text (str "ietf-restconf-monitoring") (accessPath .xml) =
    str "/ietf-restconf-monitoring:restconf-state/streams/stream[name='NETCONF']" ++
      str "/access[encoding='xml']/location" := by
  decide +kernel

section List

variable {S T : Type} [LinearOrder T] (calls : Calls S) (schemaOf : List Str → S)
  (getModuleReplaySupport : Str → Except Sysrepo.ErrorWithCode (ModuleReplaySupport T))
  (yangTimeFormat : T → Str)

/-- `newPath` for a path in the module of the list. -/
def createStreamNode (path : LocationPath) (value : Str) (data : Forest S) :
    Except Exception (Forest S) :=
  raise (newPath calls (str "ietf-restconf-monitoring") schemaOf value path data)

/-- What is created if there is something to be replayed. -/
def createReplayLeafs (replayInfo : SysrepoReplayInfo T) (data : Forest S) :
    Except Exception (Forest S) :=
  if replayInfo.enabled then do
    let data ← createStreamNode calls schemaOf (streamLeafPath "replay-support") (str "true") data
    match replayInfo.earliestNotification with
    | some earliest =>
        createStreamNode calls schemaOf (streamLeafPath "replay-log-creation-time")
          (yangTimeFormat earliest) data
    | none => return data
  else return data

/-- `notificationStreamList`: the data with the entry, below a parent which sysrepo has or
without one -/
def notificationStreamList (modules : List YangLibraryModule) (parent : Option (Forest S))
    (streamsPrefix : Str) : Except Exception (Forest S) := do
  let replayInfo ← sysrepoReplayInfo getModuleReplaySupport modules
  let data ← createStreamNode calls schemaOf (streamLeafPath "description")
    (str "Default NETCONF notification stream") (parent.getD [])
  let data ← createStreamNode calls schemaOf (accessPath .xml)
    (rousetteURIScheme ++ streamsPrefix ++ str "NETCONF/XML") data
  let data ← createStreamNode calls schemaOf (accessPath .json)
    (rousetteURIScheme ++ streamsPrefix ++ str "NETCONF/JSON") data
  createReplayLeafs calls schemaOf yangTimeFormat replayInfo data

end List

/-! ## What the loop finds -/

/-- The earliest of some times, if there are any. -/
def IsEarliest {T : Type} [LinearOrder T] (times : Set T) : Option T → Prop
  | none => times = ∅
  | some time => IsLeast times time

section Found

variable {T : Type} [LinearOrder T]
  {getModuleReplaySupport : Str → Except Sysrepo.ErrorWithCode (ModuleReplaySupport T)}

theorem isEarliest_add {times : Set T} {info : SysrepoReplayInfo T}
    (earliest : IsEarliest times info.earliestNotification) (replay : ModuleReplaySupport T) :
    IsEarliest ({time | replay.earliestNotification = some time} ∪ times)
      (info.add replay).earliestNotification := by
  rcases info with ⟨enabled, known⟩
  rcases replay with ⟨enabledToo, time⟩
  cases time with
  | none => simpa [SysrepoReplayInfo.add] using earliest
  | some time =>
      have single : {other | some time = some other} = ({time} : Set T) := by
        ext other
        simp [eq_comm]
      simp only [SysrepoReplayInfo.add, single]
      cases known with
      | none =>
          have noTimes : times = ∅ := earliest
          simp [noTimes, IsEarliest, isLeast_singleton]
      | some known => exact isLeast_singleton.union earliest

omit [LinearOrder T] in
theorem replaySupport_cons {mod : YangLibraryModule} {modules : List YangLibraryModule}
    {replay : ModuleReplaySupport T} :
    ReplaySupport getModuleReplaySupport (mod :: modules) replay ↔
      canBeSubscribed mod = true ∧ getModuleReplaySupport mod.name = .ok replay ∨
        ReplaySupport getModuleReplaySupport modules replay := by
  simp [ReplaySupport]

theorem sysrepoReplayInfoFrom_spec {modules : List YangLibraryModule}
    {info found : SysrepoReplayInfo T} {times : Set T}
    (asked : sysrepoReplayInfoFrom getModuleReplaySupport info modules = .ok found)
    (earliest : IsEarliest times info.earliestNotification) :
    (found.enabled = true ↔ info.enabled = true ∨ ReplayEnabled getModuleReplaySupport modules) ∧
      IsEarliest (EarliestTimes getModuleReplaySupport modules ∪ times)
        found.earliestNotification := by
  induction modules generalizing info times with
  | nil =>
      cases asked
      have none : EarliestTimes getModuleReplaySupport [] = ∅ := by
        simp [EarliestTimes, ReplaySupport]
      rw [none, Set.empty_union]
      exact ⟨by simp [ReplayEnabled, ReplaySupport], earliest⟩
  | cons mod modules ih =>
      rw [sysrepoReplayInfoFrom] at asked
      split at asked
      next fit =>
        rw [except_bind_eq_ok] at asked
        obtain ⟨replay, answered, asked⟩ := asked
        rw [raiseSysrepo_eq_ok] at answered
        obtain ⟨enabled, least⟩ := ih asked (isEarliest_add earliest replay)
        have answers : ∀ other, ReplaySupport getModuleReplaySupport (mod :: modules) other ↔
            other = replay ∨ ReplaySupport getModuleReplaySupport modules other := by
          intro other
          rw [replaySupport_cons, answered, Except.ok.injEq, @eq_comm _ replay]
          simp [fit]
        constructor
        · rw [enabled]
          simp only [SysrepoReplayInfo.add, Bool.or_eq_true, ReplayEnabled, answers, or_and_right,
            exists_or, exists_eq_left, or_assoc]
        · have times : EarliestTimes getModuleReplaySupport (mod :: modules) =
              EarliestTimes getModuleReplaySupport modules ∪
                {time | replay.earliestNotification = some time} := by
            ext time
            simp only [EarliestTimes, answers, Set.mem_ofPred_eq, Set.mem_union, or_and_right,
              exists_or, exists_eq_left]
            exact or_comm
          rw [times, Set.union_assoc]
          exact least
      next unfit =>
        have answers : ∀ other, ReplaySupport getModuleReplaySupport (mod :: modules) other ↔
            ReplaySupport getModuleReplaySupport modules other := by
          intro other
          rw [replaySupport_cons]
          simp [unfit]
        simp only [ReplayEnabled, EarliestTimes, answers]
        exact ih asked earliest

/-- Replay is enabled if it is for some module which can be subscribed to, and the earliest
notification is that of all those modules. -/
theorem sysrepoReplayInfo_spec {modules : List YangLibraryModule} {found : SysrepoReplayInfo T}
    (asked : sysrepoReplayInfo getModuleReplaySupport modules = .ok found) :
    (found.enabled = true ↔ ReplayEnabled getModuleReplaySupport modules) ∧
      IsEarliest (EarliestTimes getModuleReplaySupport modules) found.earliestNotification := by
  have spec := @sysrepoReplayInfoFrom_spec _ _ _ _ _ _ ∅ asked rfl
  simpa using spec

end Found

/-! ## What is in the list -/

section Listed

variable {S T : Type} {calls : Calls S} {schemaOf : List Str → S}
  {getModuleReplaySupport : Str → Except Sysrepo.ErrorWithCode (ModuleReplaySupport T)}
  {yangTimeFormat : T → Str}

/-- The data have a node with a value on a path. -/
def Lists (calls : Calls S) (path : LocationPath) (value : Str) (data : Forest S) : Prop :=
  ∃ node ∈ LocationPath.select calls (str "ietf-restconf-monitoring") path data,
    DataNode.valueStr node = value

theorem Lists.grows {path : LocationPath} {value : Str} {data after : Forest S}
    (lists : Lists calls path value data) (grows : Tree.Grows data after) :
    Lists calls path value after := by
  obtain ⟨node, member, valued⟩ := lists
  obtain ⟨node', member', embeds⟩ := select_grows grows node member
  refine ⟨node', member', ?_⟩
  rw [DataNode.valueStr, embeds.label]
  exact valued

/-- What one call of `newPath` does to the data. -/
structure Creates (calls : Calls S) (schemaOf : List Str → S) (path : LocationPath) (value : Str)
    (data after : Forest S) : Prop where
  grows : Tree.Grows data after
  lists : Lists calls path value after
  names : ∀ property : NodeData S → Prop,
    HoldsFor schemaOf property (path.flatMap XPathStep.names) →
    (∀ node ∈ data, Tree.All property node) → ∀ node ∈ after, Tree.All property node
  selected : ∀ {selects : List QName → Bool} {property : DataNode S → Prop},
    (∀ step ∈ path.head?, Prepared calls (str "ietf-restconf-monitoring") schemaOf selects property
      value [] step path.tail) →
    (∀ entry ∈ Tree.selectAll (qname calls) selects [] data, property entry.2) →
    ∀ entry ∈ Tree.selectAll (qname calls) selects [] after, property entry.2

theorem creates_of_createStreamNode
    (finds : FindsSchema calls (str "ietf-restconf-monitoring") schemaOf) {path : LocationPath}
    {value : Str} {data after : Forest S}
    (created : createStreamNode calls schemaOf path value data = .ok after) :
    Creates calls schemaOf path value data after := by
  rw [createStreamNode, raise_eq_ok] at created
  cases path with
  | nil => cases created
  | cons step path =>
      constructor
      case grows => exact newPath_grows created
      case lists => exact select_newPathBelow finds created
      case names => exact fun property new all => all_newPathBelow created new all
      case selected =>
        exact fun prepared holds => selected_newPathBelow finds (prepared step rfl) created holds

/-- What becomes of the data if there is something to be replayed, and if there is not. -/
inductive CreatesReplayLeafs (calls : Calls S) (schemaOf : List Str → S) (yangTimeFormat : T → Str)
    (replayInfo : SysrepoReplayInfo T) : Forest S → Forest S → Prop where
  | disabled {data : Forest S} (disabled : replayInfo.enabled = false) :
      CreatesReplayLeafs calls schemaOf yangTimeFormat replayInfo data data
  | enabled {data after : Forest S} (enabled : replayInfo.enabled = true)
      (nothing : replayInfo.earliestNotification = none)
      (support : Creates calls schemaOf (streamLeafPath "replay-support") (str "true") data after) :
      CreatesReplayLeafs calls schemaOf yangTimeFormat replayInfo data after
  | logged {data middle after : Forest S} {earliest : T} (enabled : replayInfo.enabled = true)
      (known : replayInfo.earliestNotification = some earliest)
      (support : Creates calls schemaOf (streamLeafPath "replay-support") (str "true") data middle)
      (log : Creates calls schemaOf (streamLeafPath "replay-log-creation-time")
        (yangTimeFormat earliest) middle after) :
      CreatesReplayLeafs calls schemaOf yangTimeFormat replayInfo data after

theorem createsReplayLeafs_of_ok
    (finds : FindsSchema calls (str "ietf-restconf-monitoring") schemaOf)
    {replayInfo : SysrepoReplayInfo T} {data after : Forest S}
    (created : createReplayLeafs calls schemaOf yangTimeFormat replayInfo data = .ok after) :
    CreatesReplayLeafs calls schemaOf yangTimeFormat replayInfo data after := by
  rcases replayInfo with ⟨enabled, earliest⟩
  cases enabled with
  | false =>
      cases created
      exact .disabled rfl
  | true =>
      rw [createReplayLeafs, if_pos rfl, except_bind_eq_ok] at created
      obtain ⟨middle, support, created⟩ := created
      have support := creates_of_createStreamNode finds support
      cases earliest with
      | none =>
          cases created
          exact .enabled rfl rfl support
      | some earliest =>
          exact .logged rfl rfl support (creates_of_createStreamNode finds created)

/-- The steps of `notificationStreamList`. -/
structure ListsStreams (calls : Calls S) (schemaOf : List Str → S) (yangTimeFormat : T → Str)
    (replayInfo : SysrepoReplayInfo T) (parent described xml json data : Forest S) : Prop where
  description : Creates calls schemaOf (streamLeafPath "description")
    (str "Default NETCONF notification stream") parent described
  accessXml : Creates calls schemaOf (accessPath .xml)
    (rousetteURIScheme ++ notificationPath (str "NETCONF") .xml) described xml
  accessJson : Creates calls schemaOf (accessPath .json)
    (rousetteURIScheme ++ notificationPath (str "NETCONF") .json) xml json
  replay : CreatesReplayLeafs calls schemaOf yangTimeFormat replayInfo json data

/-- The locations in the source, for the prefix which the server hands over. -/
theorem streamLocation_strings :
    rousetteURIScheme ++ netconfStreamRoot ++ str "NETCONF/XML" =
        rousetteURIScheme ++ notificationPath (str "NETCONF") .xml ∧
      rousetteURIScheme ++ netconfStreamRoot ++ str "NETCONF/JSON" =
        rousetteURIScheme ++ notificationPath (str "NETCONF") .json := by
  decide +kernel

/-- No node has the name. -/
def Lacks (calls : Calls S) (name : String) (data : Forest S) : Prop :=
  ∀ node ∈ data, Tree.All
    (fun label => isNamed calls (str "ietf-restconf-monitoring") [name] label = false) node

/-- A path without the name does not create a node with it. -/
theorem Creates.lacks (finds : FindsSchema calls (str "ietf-restconf-monitoring") schemaOf)
    {name : String} {path : LocationPath} {value : Str} {data after : Forest S}
    (creates : Creates calls schemaOf path value data after)
    (other : ((path.flatMap XPathStep.names).contains (str name)) = false)
    (lacks : Lacks calls name data) : Lacks calls name after := by
  apply creates.names _ _ lacks
  intro step member above value
  have different : step ≠ str name := by
    rintro rfl
    rw [List.contains_iff_mem.mpr member] at other
    cases other
  simp [isNamed, stepsIn, finds.qname, different]

theorem CreatesReplayLeafs.grows {replayInfo : SysrepoReplayInfo T} {data after : Forest S}
    (created : CreatesReplayLeafs calls schemaOf yangTimeFormat replayInfo data after) :
    Tree.Grows data after := by
  cases created with
  | disabled _ => exact .refl data
  | enabled _ _ support => exact support.grows
  | logged _ _ support log => exact support.grows.trans log.grows

theorem CreatesReplayLeafs.lists {replayInfo : SysrepoReplayInfo T} {data after : Forest S}
    (created : CreatesReplayLeafs calls schemaOf yangTimeFormat replayInfo data after)
    (enabled : replayInfo.enabled = true) :
    Lists calls (streamLeafPath "replay-support") (str "true") after ∧
      ∀ earliest ∈ replayInfo.earliestNotification,
        Lists calls (streamLeafPath "replay-log-creation-time") (yangTimeFormat earliest)
          after := by
  cases created with
  | disabled disabled =>
      rw [enabled] at disabled
      cases disabled
  | enabled _ nothing support =>
      refine ⟨support.lists, ?_⟩
      intro earliest known
      rw [nothing] at known
      cases known
  | logged _ known support log =>
      refine ⟨support.lists.grows log.grows, ?_⟩
      intro other same
      rw [known] at same
      cases same
      exact log.lists

theorem CreatesReplayLeafs.lacksSupport {replayInfo : SysrepoReplayInfo T}
    {data after : Forest S}
    (created : CreatesReplayLeafs calls schemaOf yangTimeFormat replayInfo data after)
    (disabled : ¬replayInfo.enabled = true) (lacks : Lacks calls "replay-support" data) :
    Lacks calls "replay-support" after := by
  cases created with
  | disabled _ => exact lacks
  | enabled enabled => exact absurd enabled disabled
  | logged enabled => exact absurd enabled disabled

theorem CreatesReplayLeafs.lacksLog
    (finds : FindsSchema calls (str "ietf-restconf-monitoring") schemaOf)
    {replayInfo : SysrepoReplayInfo T} {data after : Forest S}
    (created : CreatesReplayLeafs calls schemaOf yangTimeFormat replayInfo data after)
    (nothing : ¬(replayInfo.enabled = true ∧ replayInfo.earliestNotification.isSome = true))
    (lacks : Lacks calls "replay-log-creation-time" data) :
    Lacks calls "replay-log-creation-time" after := by
  cases created with
  | disabled _ => exact lacks
  | enabled _ _ support => exact support.lacks finds (by decide +kernel) lacks
  | logged enabled known => exact absurd ⟨enabled, by rw [known]; rfl⟩ nothing

variable [LinearOrder T]

theorem listsStreams_of_ok (finds : FindsSchema calls (str "ietf-restconf-monitoring") schemaOf)
    {modules : List YangLibraryModule} {parent : Option (Forest S)} {data : Forest S}
    (listed : notificationStreamList calls schemaOf getModuleReplaySupport yangTimeFormat modules
      parent netconfStreamRoot = .ok data) :
    ∃ replayInfo described xml json,
      sysrepoReplayInfo getModuleReplaySupport modules = .ok replayInfo ∧
      ListsStreams calls schemaOf yangTimeFormat replayInfo (parent.getD []) described xml json
        data := by
  simp only [notificationStreamList, except_bind_eq_ok] at listed
  obtain ⟨replayInfo, asked, described, description, xml, accessXml, json, accessJson, replay⟩ :=
    listed
  rw [streamLocation_strings.1] at accessXml
  rw [streamLocation_strings.2] at accessJson
  refine ⟨replayInfo, described, xml, json, asked, ?_⟩
  exact {
    description := creates_of_createStreamNode finds description
    accessXml := creates_of_createStreamNode finds accessXml
    accessJson := creates_of_createStreamNode finds accessJson
    replay := createsReplayLeafs_of_ok finds replay }

/-- The entry of the stream has a location for both encodings, and nothing of the parent is lost.
It supports replay if and only if some module does which can be subscribed to, and then the log
was created when the earliest notification of all these modules was sent. -/
theorem streams_listed (finds : FindsSchema calls (str "ietf-restconf-monitoring") schemaOf)
    {modules : List YangLibraryModule} {parent : Option (Forest S)} {data : Forest S}
    (listed : notificationStreamList calls schemaOf getModuleReplaySupport yangTimeFormat modules
      parent netconfStreamRoot = .ok data) :
    Tree.Grows (parent.getD []) data ∧
      (∀ encoding, Lists calls (accessPath encoding)
        (rousetteURIScheme ++ notificationPath (str "NETCONF") encoding) data) ∧
      (ReplayEnabled getModuleReplaySupport modules →
        Lists calls (streamLeafPath "replay-support") (str "true") data ∧
        ∀ earliest, IsLeast (EarliestTimes getModuleReplaySupport modules) earliest →
          Lists calls (streamLeafPath "replay-log-creation-time") (yangTimeFormat earliest)
            data) ∧
      (¬ReplayEnabled getModuleReplaySupport modules →
        Lacks calls "replay-support" (parent.getD []) → Lacks calls "replay-support" data) ∧
      (¬(ReplayEnabled getModuleReplaySupport modules ∧
          (EarliestTimes getModuleReplaySupport modules).Nonempty) →
        Lacks calls "replay-log-creation-time" (parent.getD []) →
          Lacks calls "replay-log-creation-time" data) := by
  obtain ⟨replayInfo, described, xml, json, asked, steps⟩ := listsStreams_of_ok finds listed
  obtain ⟨enabled, earliest⟩ := sysrepoReplayInfo_spec asked
  have ends := steps.replay.grows
  have before {name : String} (lacks : Lacks calls name (parent.getD []))
      (other : ((streamLeafPath "description" ++ accessPath .xml ++ accessPath .json).flatMap
        XPathStep.names).contains (str name) = false) : Lacks calls name json := by
    simp only [List.flatMap_append, List.contains_append, Bool.or_eq_false_iff] at other
    have first := steps.description.lacks finds other.1.1 lacks
    exact steps.accessJson.lacks finds other.2 (steps.accessXml.lacks finds other.1.2 first)
  refine ⟨?_, ?_, ?_, ?_, ?_⟩
  · exact steps.description.grows.trans
      (steps.accessXml.grows.trans (steps.accessJson.grows.trans ends))
  · intro encoding
    cases encoding with
    | xml => exact steps.accessXml.lists.grows (steps.accessJson.grows.trans ends)
    | json => exact steps.accessJson.lists.grows ends
  · intro replays
    obtain ⟨support, log⟩ := steps.replay.lists (enabled.mpr replays)
    refine ⟨support, fun time least => log time ?_⟩
    generalize replayInfo.earliestNotification = known at earliest
    cases known with
    | none =>
        have nothing : EarliestTimes getModuleReplaySupport modules = ∅ := earliest
        rw [nothing] at least
        exact absurd least.1 (Set.notMem_empty time)
    | some known => rw [least.unique earliest, Option.mem_def]
  · intro noReplay lacks
    exact steps.replay.lacksSupport (mt enabled.mp noReplay)
      (before lacks (by decide +kernel))
  · intro nothing lacks
    apply steps.replay.lacksLog finds _ (before lacks (by decide +kernel))
    rintro ⟨enables, known⟩
    apply nothing
    refine ⟨enabled.mp enables, ?_⟩
    obtain ⟨time, known⟩ := Option.isSome_iff_exists.mp known
    rw [known] at earliest
    exact ⟨time, earliest.1⟩

end Listed

/-! ## What the locations lead to -/

section Access

variable {S T : Type} {calls : Calls S} {schemaOf : List Str → S}
  {getModuleReplaySupport : Str → Except Sysrepo.ErrorWithCode (ModuleReplaySupport T)}
  {yangTimeFormat : T → Str}

/-- The node is the key of an entry for the access to a stream. -/
def isEncoding (calls : Calls S) (label : NodeData S) : Bool :=
  isNamed calls (str "ietf-restconf-monitoring") ["encoding"] label

/-- An entry is for an encoding, and its location is that of the stream in this encoding. -/
def AccessLocates (calls : Calls S) (node : DataNode S) : Prop :=
  ∃ encoding, (∃ key ∈ node.children, isEncoding calls key.label = true ∧
      DataNode.valueStr key = encodingText encoding) ∧
    ∀ location ∈ node.children, isStreamLocation calls location.label = true →
      DataNode.valueStr location =
        rousetteURIScheme ++ notificationPath (str "NETCONF") encoding

/-- All entries for the access to streams are such. -/
def AllAccessLocates (calls : Calls S) (data : Forest S) : Prop :=
  ∀ entry ∈ accessEntries calls data, AccessLocates calls entry.2

/-- The names on the way to an entry for the access to a stream. -/
theorem selects_access_iff {names : List Str} :
    (qualified (str "ietf-restconf-monitoring") names == streamAccessXPath) = true ↔
      names = [str "restconf-state", str "streams", str "stream", str "access"] := by
  have xpath : streamAccessXPath = qualified (str "ietf-restconf-monitoring")
      [str "restconf-state", str "streams", str "stream", str "access"] := rfl
  have injective : Function.Injective fun name : Str => (str "ietf-restconf-monitoring", name) :=
    fun _ _ same => (Prod.mk.inj same).2
  rw [beq_iff_eq, xpath]
  exact (List.map_injective_iff.mpr injective).eq_iff

/-- A path without such an entry changes none. -/
theorem prepared_of_lacking {value : Str} {path : LocationPath} {step : XPathStep}
    (lacking : ((step :: path).flatMap XPathStep.names).contains (str "access") = false) :
    Prepared calls (str "ietf-restconf-monitoring") schemaOf (· == streamAccessXPath)
      (AccessLocates calls) value [] step path := by
  apply prepared_of_unselected (fun names inside => ?_) fun name member => member
  rw [Bool.eq_false_iff]
  intro selected
  have access := inside (str "access") (by rw [selects_access_iff.mp selected]; simp)
  rw [List.nil_append, ← List.contains_iff_mem, lacking] at access
  cases access

theorem isStreamLocation_created
    (finds : FindsSchema calls (str "ietf-restconf-monitoring") schemaOf) (above : List Str)
    (name value : Str) :
    isStreamLocation calls ⟨schemaOf (above ++ [name]), value, []⟩ = true ↔
      name = str "location" := by
  simp [isStreamLocation, isNamed, stepsIn, finds.qname]

/-- The step to the entry for an encoding. -/
def accessStep (encoding : DataFormat) : XPathStep :=
  ⟨str "access", some (str "encoding", encodingText encoding)⟩

/-- The key of a selected entry. -/
theorem encoding_of_selects {encoding : DataFormat} {node : DataNode S}
    (selected : (accessStep encoding).selects calls (str "ietf-restconf-monitoring") node = true) :
    ∃ key ∈ node.children, isEncoding calls key.label = true ∧
      DataNode.valueStr key = encodingText encoding := by
  simp only [accessStep, XPathStep.selects, Bool.and_eq_true, List.any_eq_true, beq_iff_eq]
    at selected
  obtain ⟨_, key, member, named, valued⟩ := selected
  refine ⟨key, member, ?_, valued⟩
  simp [isEncoding, isNamed, stepsIn, named]

/-- An entry which is created locates the stream. -/
theorem accessLocates_created
    (finds : FindsSchema calls (str "ietf-restconf-monitoring") schemaOf) (encoding : DataFormat)
    (above : List Str) :
    AccessLocates calls (createdAlong schemaOf
      (rousetteURIScheme ++ notificationPath (str "NETCONF") encoding) above (accessStep encoding)
      [⟨str "location", none⟩]) := by
  refine ⟨encoding, encoding_of_selects (selects_createdAlong finds _ _ _ _), ?_⟩
  intro location member isLocation
  rcases List.mem_append.mp member with isKey | created
  · rw [List.mem_singleton.mp isKey] at isLocation
    have name := (isStreamLocation_created finds _ _ _).mp isLocation
    exact absurd name (by decide)
  · rw [List.mem_singleton.mp created]
    rfl

/-- An entry which has got a location locates the stream. -/
theorem accessLocates_changed {encoding : DataFormat} {above : List Str} {node : DataNode S}
    {children : Forest S}
    (selected : (accessStep encoding).selects calls (str "ietf-restconf-monitoring") node = true)
    (done : newPathBelow calls (str "ietf-restconf-monitoring") schemaOf
      (rousetteURIScheme ++ notificationPath (str "NETCONF") encoding) above
      ⟨str "location", none⟩ [] node.children = .ok children) :
    AccessLocates calls (.node node.label children) := by
  obtain ⟨key, isChild, isKey, valued⟩ := encoding_of_selects selected
  have changed := Tree.changedFirst_of_changeFirst done
  generalize node.children = before at changed isChild
  cases changed with
  | changed _ _ failed => cases failed
  | added unfit =>
      refine ⟨encoding, ⟨key, List.mem_append_left _ isChild, isKey, valued⟩, ?_⟩
      intro location member isLocation
      rcases List.mem_append.mp member with old | created
      · have named : qname calls location.label =
            (str "ietf-restconf-monitoring", str "location") := by
          simpa [isStreamLocation, isNamed, stepsIn] using isLocation
        have other := unfit location old
        simp [XPathStep.selects, named] at other
      · rw [List.mem_singleton.mp created]
        rfl

theorem prepared_accessPath
    (finds : FindsSchema calls (str "ietf-restconf-monitoring") schemaOf) (encoding : DataFormat) :
    Prepared calls (str "ietf-restconf-monitoring") schemaOf (· == streamAccessXPath)
      (AccessLocates calls) (rousetteURIScheme ++ notificationPath (str "NETCONF") encoding) []
      ⟨str "restconf-state", none⟩ (accessPath encoding).tail := by
  have unselected {names : List Str}
      (other : names ≠ [str "restconf-state", str "streams", str "stream", str "access"]) :
      ¬(qualified (str "ietf-restconf-monitoring") names == streamAccessXPath) = true :=
    mt selects_access_iff.mp other
  have noKey {names : List Str} : ∀ key ∈ (none : Option (Str × Str)),
      (qualified (str "ietf-restconf-monitoring") (names ++ [key.1]) == streamAccessXPath) =
        false := by
    intro key none
    cases none
  have root := @unselected [str "restconf-state"] (by decide)
  have streams := @unselected [str "restconf-state", str "streams"] (by decide)
  have stream := @unselected [str "restconf-state", str "streams", str "stream"] (by decide)
  have key := @unselected
    [str "restconf-state", str "streams", str "stream", str "access", str "encoding"] (by decide)
  have location := @unselected
    [str "restconf-state", str "streams", str "stream", str "access", str "location"] (by decide)
  refine ⟨noKey, (absurd · root), (absurd · root), noKey, (absurd · streams), (absurd · streams),
    ?_, (absurd · stream), (absurd · stream), ?_, ?_, ?_, noKey, (absurd · location), trivial⟩
  · rintro key ⟨⟩
    exact Bool.eq_false_iff.mpr (unselected (by decide))
  · rintro _ ⟨⟩
    exact Bool.eq_false_iff.mpr key
  · exact fun _ => accessLocates_created finds encoding _
  · exact fun _ node children _ selected done => accessLocates_changed selected done

theorem Creates.leaf {name : String} {value : Str} {data after : Forest S}
    (creates : Creates calls schemaOf (streamLeafPath name) value data after)
    (other : ((streamLeafPath name).flatMap XPathStep.names).contains (str "access") = false)
    (locates : AllAccessLocates calls data) : AllAccessLocates calls after := by
  apply creates.selected _ locates
  intro step isFirst
  cases isFirst
  exact prepared_of_lacking other

theorem Creates.access (finds : FindsSchema calls (str "ietf-restconf-monitoring") schemaOf)
    {encoding : DataFormat} {data after : Forest S}
    (creates : Creates calls schemaOf (accessPath encoding)
      (rousetteURIScheme ++ notificationPath (str "NETCONF") encoding) data after)
    (locates : AllAccessLocates calls data) : AllAccessLocates calls after := by
  apply creates.selected _ locates
  intro step isFirst
  cases isFirst
  exact prepared_accessPath finds encoding

/-- All entries in the list lead to the stream, if those of the parent do. -/
theorem ListsStreams.allAccessLocates
    (finds : FindsSchema calls (str "ietf-restconf-monitoring") schemaOf)
    {replayInfo : SysrepoReplayInfo T} {parent described xml json data : Forest S}
    (lists : ListsStreams calls schemaOf yangTimeFormat replayInfo parent described xml json data)
    (locates : AllAccessLocates calls parent) : AllAccessLocates calls data := by
  have locates := lists.description.leaf (by decide +kernel) locates
  have locates := lists.accessXml.access finds locates
  have locates := lists.accessJson.access finds locates
  cases lists.replay with
  | disabled _ => exact locates
  | enabled _ _ support => exact support.leaf (by decide +kernel) locates
  | logged _ _ support log =>
      exact log.leaf (by decide +kernel) (support.leaf (by decide +kernel) locates)

/-! ## What a client gets -/

/-- What a user may read of the data: some of the entries, with some of their leafs, but always
with their keys. -/
def AccessRead (calls : Calls S) (data read : Forest S) : Prop :=
  ∀ entry ∈ accessEntries calls read, ∃ whole ∈ accessEntries calls data,
    entry.2.children ⊆ whole.2.children ∧
      ∀ key ∈ whole.2.children, isEncoding calls key.label = true → key ∈ entry.2.children

theorem AccessRead.allAccessLocates {data read : Forest S} (reads : AccessRead calls data read)
    (locates : AllAccessLocates calls data) : AllAccessLocates calls read := by
  intro entry member
  obtain ⟨whole, inside, leafs, keys⟩ := reads entry member
  obtain ⟨encoding, ⟨key, isChild, isKey, valued⟩, locations⟩ := locates whole inside
  refine ⟨encoding, ⟨key, keys key isChild isKey, isKey, valued⟩, ?_⟩
  exact fun location isLeaf => locations location (leafs isLeaf)

/-- libyang stores new locations, which are of the type `inet:uri`, as they are. -/
def StoresLocations (calls : Calls S) : Prop :=
  ∀ {node value created}, calls.newPath node (str "location") value = .ok created →
    qname calls created.label = (calls.ctx.moduleName node.schema, str "location") ∧
      DataNode.valueStr created = value

/-- An entry with a location below scheme and host. -/
def AccessAdvertises (calls : Calls S) (host : Str) (node : DataNode S) : Prop :=
  ∃ encoding, (∃ key ∈ node.children, isEncoding calls key.label = true ∧
      DataNode.valueStr key = encodingText encoding) ∧
    (∃ location ∈ node.children, isStreamLocation calls location.label = true) ∧
    ∀ location ∈ node.children, isStreamLocation calls location.label = true →
      DataNode.valueStr location = host ++ notificationPath (str "NETCONF") encoding

theorem not_isStreamLocation_of_isEncoding {label : NodeData S}
    (isKey : isEncoding calls label = true) : isStreamLocation calls label = false := by
  have named : qname calls label = (str "ietf-restconf-monitoring", str "encoding") := by
    simpa [isEncoding, isNamed, stepsIn] using isKey
  have other : str "encoding" ≠ str "location" := by decide
  simp [isStreamLocation, isNamed, stepsIn, named, other]

theorem nothing_below_access (step : QName) (below : List QName) :
    (streamAccessXPath ++ step :: below == streamAccessXPath) = false := by
  rw [beq_eq_false_iff_ne]
  intro same
  have lengths := congrArg List.length same
  simp only [List.length_append, List.length_cons] at lengths
  omega

/-- Where a new location is put. -/
theorem relocateStream_some {host : Str} {path : List QName} {node : DataNode S}
    {edit : List (DataNode S) → List (DataNode S)}
    (planned : relocateStream calls (some host) path node = .ok edit) :
    ∃ locationNode updated, findChild calls node "location" = some locationNode ∧
      calls.newPath node (str "location")
        (host ++ locationNode.valueStr.drop rousetteURIScheme.length) = .ok updated ∧
      edit = List.map fun child =>
        if isStreamLocation calls child.label then updated else child := by
  unfold relocateStream at planned
  split at planned
  next => cases planned
  next locationNode found =>
    simp only [except_bind_eq_ok, raise_eq_ok] at planned
    obtain ⟨updated, stored, result⟩ := planned
    cases result
    exact ⟨locationNode, updated, found, stored, rfl⟩

/-- What becomes of an entry. -/
theorem accessAdvertises_of_edited (stores : StoresLocations calls) {host : Str}
    {entry entry' : List QName × DataNode S}
    (edited : Tree.Edited (qname calls) (· == streamAccessXPath)
      (relocateStream calls (some host)) entry entry')
    (locates : AccessLocates calls entry.2) : AccessAdvertises calls host entry'.2 := by
  obtain ⟨edit, rewritten, planned, below, children⟩ := edited.children
  obtain ⟨above, ends⟩ := edited.ends
  have selected : entry.1 = streamAccessXPath := beq_iff_eq.mp edited.selected
  rw [selected, Tree.rewriteAll_below nothing_below_access] at below
  cases below
  obtain ⟨locationNode, updated, found, stored, rfl⟩ := relocateStream_some planned
  rw [selected] at ends
  have monitoring : calls.ctx.moduleName entry.2.schema = str "ietf-restconf-monitoring" :=
    moduleName_of_stepsIn ends.symm
  have isLocation : isStreamLocation calls locationNode.label = true := by
    have isChild := List.find?_some found
    rwa [monitoring] at isChild
  obtain ⟨named, value⟩ := stores stored
  rw [monitoring] at named
  have isUpdated := isStreamLocation_of_qname named
  obtain ⟨encoding, ⟨key, isChild, isKey, valued⟩, locations⟩ := locates
  have original := locations locationNode (List.mem_of_find?_eq_some found) isLocation
  rw [original, List.drop_left] at value
  refine ⟨encoding, ⟨key, ?_, isKey, valued⟩, ⟨updated, ?_, isUpdated⟩, ?_⟩
  · rw [children]
    have kept := not_isStreamLocation_of_isEncoding isKey
    exact List.mem_map.mpr ⟨key, isChild, if_neg (by simp [kept])⟩
  · rw [children]
    exact List.mem_map.mpr ⟨locationNode, List.mem_of_find?_eq_some found, if_pos isLocation⟩
  · intro location member isNew
    rw [children] at member
    obtain ⟨child, _, mapped⟩ := List.mem_map.mp member
    split at mapped
    next =>
      rw [← mapped]
      exact value
    next other =>
      rw [mapped] at other
      exact absurd isNew other

theorem accessAdvertises_of_relocated (stores : StoresLocations calls) {host : Str}
    {read after : Forest S}
    (relocated : replaceStreamLocations calls (some host) read = .ok after)
    (locates : AllAccessLocates calls read) :
    ∀ entry ∈ accessEntries calls after, AccessAdvertises calls host entry.2 := by
  have edited : List.Forall₂ (Tree.Edited (qname calls) (· == streamAccessXPath)
      (relocateStream calls (some host))) (accessEntries calls read)
      (accessEntries calls after) := by
    apply Tree.selectAll_rewriteAll_edited _ [] read relocated
    intro above node edit selected _ children
    have path : above ++ [qname calls node.label] = streamAccessXPath := beq_iff_eq.mp selected
    rw [path, Tree.selectAll_below nothing_below_access, Tree.selectAll_below nothing_below_access]
  have advertises := ((List.forall₂_and_left _ _).mpr ⟨locates, edited⟩).imp
    fun entry entry' both => accessAdvertises_of_edited stores both.2 both.1
  intro entry member
  obtain ⟨index, below, rfl⟩ := List.getElem_of_mem member
  have same := advertises.length_eq
  exact advertises.get (same ▸ below) below

section Handler

variable [LinearOrder T] {fromYangTimeFormat : Str → Except Exception T} {recoveryUser : Str}

/-- A `GET` or a `HEAD` for a stream, with some parameters, by a client which was let in. -/
structure AsksForStream (call : StreamCall T) (params : QueryParams) (user : Str) : Prop where
  method : call.method = str "GET" ∨ call.method = str "HEAD"
  started : call.sessionStart = .ok ()
  admitted : call.authorize = .ok user
  parsed : Impl.parseQueryParams call.rawQuery (call.path.length + 1) = .ok params
  valid : validateQueryParametersForStream params = .ok ()

/-- The stream which is found at its path. -/
theorem handleStreams_netconf {call : StreamCall T} {params : QueryParams} {user : Str}
    {encoding : DataFormat} {query : NotificationQuery T} {notifSubs : Option (List Str)}
    (asks : AsksForStream call params user)
    (path : call.path = notificationPath (str "NETCONF") encoding)
    (interpreted : notificationQuery fromYangTimeFormat ⟨str "NETCONF", encoding, params⟩ =
      .ok query)
    (created : NotificationStream.create (call.onNotification query) call.modules call.now
      query.startTime query.stopTime = .ok notifSubs) (s : Subscriptions) :
    handleStreams fromYangTimeFormat recoveryUser call s =
      (.ok (.notifications encoding notifSubs), s) := by
  have stream := (@parseStreamUri_advertised 0 (by decide) encoding).2
  have allowed : require (call.method = str "GET" ∨ call.method = str "HEAD")
      (reject 405 "application" "operation-not-supported" (str "Method not allowed.")) = .ok () :=
    require_eq_ok.mpr (decide_eq_true asks.method)
  have parsed := asks.parsed
  have notOptions : call.method ≠ str "OPTIONS" := by
    rcases asks.method with get | head
    · rw [get]
      decide
    · rw [head]
      decide
  rw [path] at parsed
  have accepted : asRestconfStreamRequest call.method call.path call.rawQuery =
      .ok (.notification ⟨str "NETCONF", encoding, params⟩) := by
    simp only [asRestconfStreamRequest, allowed, path, stream, parsed, asks.valid, except_ok_bind]
    rfl
  have opened : openStream fromYangTimeFormat recoveryUser call s =
      .ok (.notifications encoding notifSubs, s) := by
    simp only [openStream, asks.started, asks.admitted, raiseSysrepo, except_ok_bind, accepted,
      openNotifications, interpreted, created]
    rfl
  rw [handleStreams, if_neg notOptions, opened]

/-- Whoever reads the list of streams finds them: an entry with a location, as the client gets it,
is for an encoding, and its location is the scheme and the host with a path at which the handler
of streams opens the stream of notifications in this encoding. -/
theorem advertised_streams_open
    (finds : FindsSchema calls (str "ietf-restconf-monitoring") schemaOf)
    (stores : StoresLocations calls) {modules : List YangLibraryModule}
    {parent : Option (Forest S)} {data read after : Forest S} {host : Str}
    (listed : notificationStreamList calls schemaOf getModuleReplaySupport yangTimeFormat modules
      parent netconfStreamRoot = .ok data)
    (others : AllAccessLocates calls (parent.getD [])) (reads : AccessRead calls data read)
    (relocated : replaceStreamLocations calls (some host) read = .ok after) :
    ∀ entry ∈ accessEntries calls after, ∃ encoding target,
      (∃ key ∈ entry.2.children, isEncoding calls key.label = true ∧
        DataNode.valueStr key = encodingText encoding) ∧
      (∃ location ∈ entry.2.children, isStreamLocation calls location.label = true) ∧
      (∀ location ∈ entry.2.children, isStreamLocation calls location.label = true →
        DataNode.valueStr location = host ++ target) ∧
      ∀ (call : StreamCall T) (params : QueryParams) (user : Str) (query : NotificationQuery T)
        (notifSubs : Option (List Str)) (s : Subscriptions),
        AsksForStream call params user → call.path = target →
        notificationQuery fromYangTimeFormat ⟨str "NETCONF", encoding, params⟩ = .ok query →
        NotificationStream.create (call.onNotification query) call.modules call.now
          query.startTime query.stopTime = .ok notifSubs →
        handleStreams fromYangTimeFormat recoveryUser call s =
          (.ok (.notifications encoding notifSubs), s) := by
  obtain ⟨replayInfo, described, xml, json, _, lists⟩ := listsStreams_of_ok finds listed
  have locates := reads.allAccessLocates (lists.allAccessLocates finds others)
  intro entry member
  obtain ⟨encoding, isFor, located, locations⟩ :=
    accessAdvertises_of_relocated stores relocated locates entry member
  refine ⟨encoding, notificationPath (str "NETCONF") encoding, isFor, located, locations, ?_⟩
  intro call params user query notifSubs s asks path interpreted created
  exact handleStreams_netconf asks path interpreted created s

end Handler

end Access

/-! ## A list without a parent -/

/-- Schema nodes which are nothing but their names, in the module of the list. -/
def monitoringSchema (names : List Str) : QName :=
  (str "ietf-restconf-monitoring", names.getLast?.getD [])

theorem monitoringSchema_finds :
    FindsSchema leafsOnly (str "ietf-restconf-monitoring") monitoringSchema := by
  intro above name
  constructor
  · rfl
  · have last : (above ++ [name]).getLast?.getD [] = name := by simp
    exact last

theorem leafsOnly_storesLocations : StoresLocations leafsOnly := by
  intro node value created stored
  cases stored
  exact ⟨rfl, rfl⟩

/-- All modules replay, among them `sysrepo`, which is not asked. -/
def exampleReplay (name : Str) : Except Sysrepo.ErrorWithCode (ModuleReplaySupport Nat) :=
  .ok ⟨true, some (if name = str "sysrepo" then 1970 else 2020)⟩

def exampleModules : List YangLibraryModule := [⟨str "sysrepo", true⟩, ⟨str "example", true⟩]

def yearText (year : Nat) : Str :=
  if year = 2020 then str "2020-01-01T00:00:00Z" else str "1970-01-01T00:00:00Z"

/-- The list for the modules. -/
def exampleList : Except Exception (Forest QName) :=
  notificationStreamList leafsOnly monitoringSchema exampleReplay yearText exampleModules none
    netconfStreamRoot

theorem exampleList_isOk : ∃ data after, exampleList = .ok data ∧
    replaceStreamLocations leafsOnly (some (str "https://localhost")) data = .ok after :=
  ⟨_, _, rfl, rfl⟩

theorem exampleReplay_support : ReplaySupport exampleReplay exampleModules ⟨true, some 2020⟩ :=
  ⟨⟨str "example", true⟩, .tail _ (.head _), rfl, rfl⟩

theorem exampleReplay_earliest : IsLeast (EarliestTimes exampleReplay exampleModules) 2020 := by
  constructor
  · exact ⟨_, exampleReplay_support, rfl⟩
  · rintro time ⟨replay, ⟨mod, member, fit, answered⟩, known⟩
    have other : mod.name ≠ str "sysrepo" := by
      intro same
      rw [canBeSubscribed, same] at fit
      simp at fit
    simp only [exampleReplay, if_neg other, Except.ok.injEq] at answered
    subst answered
    cases known
    exact le_refl _

theorem streams_listed_example : ∃ data, exampleList = .ok data ∧
    Lists leafsOnly (accessPath .json)
      (rousetteURIScheme ++ notificationPath (str "NETCONF") .json) data ∧
    Lists leafsOnly (streamLeafPath "replay-log-creation-time") (str "2020-01-01T00:00:00Z")
      data := by
  obtain ⟨data, _, listed, _⟩ := exampleList_isOk
  obtain ⟨_, locations, replay, _⟩ := streams_listed monitoringSchema_finds listed
  have log := (replay ⟨_, exampleReplay_support, rfl⟩).2 2020 exampleReplay_earliest
  exact ⟨data, listed, locations .json, log⟩

/-- A request for a stream of notifications. -/
def netconfVisit (path : Str) : StreamCall Nat where
  method := str "GET"
  path := path
  rawQuery := []
  sessionStart := .ok ()
  authorize := .ok (str "norules")
  modules := exampleModules
  now := 2025
  onNotification _ _ _ := .ok ()

theorem advertised_streams_open_example : ∃ data after, exampleList = .ok data ∧
    replaceStreamLocations leafsOnly (some (str "https://localhost")) data = .ok after ∧
    ∀ entry ∈ accessEntries leafsOnly after, ∃ encoding target,
      (∀ location ∈ entry.2.children, isStreamLocation leafsOnly location.label = true →
        DataNode.valueStr location = str "https://localhost" ++ target) ∧
      handleStreams years.fromYangTimeFormat (str "root") (netconfVisit target)
        Subscriptions.empty =
          (.ok (.notifications encoding (some [str "example"])), Subscriptions.empty) := by
  obtain ⟨data, after, listed, relocated⟩ := exampleList_isOk
  have reads : AccessRead leafsOnly data data :=
    fun entry member => ⟨entry, member, List.Subset.refl _, fun _ isChild _ => isChild⟩
  have nothing : AllAccessLocates leafsOnly ((none : Option (Forest QName)).getD []) := by
    intro entry none
    cases none
  refine ⟨data, after, listed, relocated, ?_⟩
  intro entry member
  obtain ⟨encoding, target, _, _, locations, opens⟩ := @advertised_streams_open _ Nat _ _ _ _ _
    years.fromYangTimeFormat (str "root") monitoringSchema_finds leafsOnly_storesLocations _ _ _ _
    _ _ listed nothing reads relocated entry member
  refine ⟨encoding, target, locations, ?_⟩
  exact opens (netconfVisit target) [] (str "norules") ⟨none, none, none⟩ (some [str "example"])
    Subscriptions.empty ⟨.inl rfl, rfl, rfl, rfl, rfl⟩ rfl rfl rfl

end Rousette.Restconf.Server
