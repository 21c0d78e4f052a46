import Rousette.Library.Text

/-!
# Anonymous access and NACM

`auth/Nacm.cpp` enables anonymous access only while the first entry of the
`rule-list` list satisfies a fixed policy.  This module embeds that check and, next
to it, the evaluation of a request by the rules of RFC 8341, and states how far the
check confines the anonymous user.

The leafs of a rule with a default (`module-name` and `access-operations`) are part
of the data which sysrepo returns, so that a rule always has them; `action` is
mandatory.  The names of groups, rule-lists and rules play no role in either
function beyond the membership of users in groups.
-/

namespace Rousette.Auth

open Library

/-- One of the `access-operations-type` bits. -/
inductive AccessOperation where
  | create
  | read
  | update
  | delete
  | exec
  deriving DecidableEq, Repr

/-- Value of the `access-operations` leaf: the string `*` or a set of bits. -/
inductive AccessOperations where
  | all
  | bits (create read update delete exec : Bool)
  deriving DecidableEq, Repr

namespace AccessOperations

/-- Is the operation among the listed ones? -/
def includes : AccessOperations → AccessOperation → Bool
  | .all, _ => true
  | .bits create _ _ _ _, .create => create
  | .bits _ read _ _ _, .read => read
  | .bits _ _ update _ _, .update => update
  | .bits _ _ _ delete _, .delete => delete
  | .bits _ _ _ _ exec, .exec => exec

/-- Canonical value of the leaf: the names of the bits in the order of their
definition. -/
def valueStr : AccessOperations → Str
  | .all => str "*"
  | .bits create read update delete exec =>
      join (str " ")
        ((if create then [str "create"] else []) ++ (if read then [str "read"] else []) ++
          (if update then [str "update"] else []) ++
          (if delete then [str "delete"] else []) ++ (if exec then [str "exec"] else []))

theorem eq_of_valueStr_read {operations : AccessOperations}
    (value : operations.valueStr = str "read") :
    operations = .bits false true false false false := by
  cases operations with
  | all => exact absurd value (by decide)
  | bits create read update delete exec => revert create read update delete exec; decide

theorem eq_of_valueStr_exec {operations : AccessOperations}
    (value : operations.valueStr = str "exec") :
    operations = .bits false false false false true := by
  cases operations with
  | all => exact absurd value (by decide)
  | bits create read update delete exec => revert create read update delete exec; decide

theorem eq_of_valueStr_all {operations : AccessOperations}
    (value : operations.valueStr = str "*") : operations = .all := by
  cases operations with
  | all => rfl
  | bits create read update delete exec => revert create read update delete exec; decide

end AccessOperations

/-- The leaf of the `rule-type` choice, if the rule has one. -/
inductive RuleType where
  | rpcName (name : Str)
  | notificationName (name : Str)
  | path (instance_ : Str)
  deriving DecidableEq, Repr

inductive Action where
  | permit
  | deny
  deriving DecidableEq, Repr

/-- One entry of the `rule` list. -/
structure Rule where
  moduleName : Str
  ruleType : Option RuleType
  accessOperations : AccessOperations
  action : Action
  deriving DecidableEq, Repr

/-- One entry of the `rule-list` list. -/
structure RuleList where
  groups : List Str
  rules : List Rule
  deriving DecidableEq, Repr

/-! ## The check of the server -/

/-- The `rpc-name` leaf of a rule. -/
def Rule.rpcName (rule : Rule) : Option Str :=
  match rule.ruleType with
  | some (.rpcName name) => some name
  | _ => none

/-- `isWhitelistedRPC` -/
def isWhitelistedRPC (moduleName rpcName : Option Str) : Bool :=
  match moduleName, rpcName with
  | some module_, some rpc =>
      module_ == str "ietf-subscribed-notifications" && rpc == str "establish-subscription"
  | _, _ => false

/-- `isRuleForAnonymousAccess`; the leaf `access-operations` occurs exactly once. -/
def isRuleForAnonymousAccess (rule : Rule) : Bool :=
  let accessOperations := rule.accessOperations.valueStr
  accessOperations == str "read" ||
    (accessOperations == str "exec" && isWhitelistedRPC (some rule.moduleName) rule.rpcName)

/-- `isRuleWildcardDeny` -/
def isRuleWildcardDeny (rule : Rule) : Bool :=
  rule.action == .deny && rule.moduleName == str "*" &&
    rule.accessOperations.valueStr == str "*"

/-- `validAnonymousNacmRules` on the `rule-list` entries of the running datastore,
if there is any NACM configuration. -/
def validAnonymousNacmRules (data : Option (List RuleList)) (anonGroup : Str) : Bool :=
  match data with
  | none => false
  | some [] => false
  | some (firstRuleSet :: _) =>
      if !firstRuleSet.groups.any (· == anonGroup) then
        false
      else
        match firstRuleSet.rules.getLast? with
        | none => false
        | some last =>
            firstRuleSet.rules.dropLast.all isRuleForAnonymousAccess &&
              isRuleWildcardDeny last

/-! ## Evaluation by RFC 8341 -/

/-- What a user may ask for. An action is an operation at a data node. -/
inductive Request where
  | data (kind : AccessOperation) (moduleName node : Str)
  | operation (moduleName name : Str) (node : Option Str)
  | notification (moduleName name : Str) (node : Option Str)
  deriving DecidableEq, Repr

namespace Request

/-- The module which defines the accessed object. -/
def moduleName : Request → Str
  | .data _ module_ _ => module_
  | .operation module_ _ _ => module_
  | .notification module_ _ _ => module_

/-- The access operation which the request needs. -/
def access : Request → AccessOperation
  | .data kind _ _ => kind
  | .operation _ _ _ => .exec
  | .notification _ _ _ => .read

/-- The requests which anonymous access must never be granted: any change of data,
and any operation other than establishing a subscription. -/
def Forbidden : Request → Prop
  | .data kind _ _ => kind = .create ∨ kind = .update ∨ kind = .delete
  | .operation module_ name _ =>
      ¬(module_ = str "ietf-subscribed-notifications" ∧ name = str "establish-subscription")
  | .notification _ _ _ => False

end Request

/-- A NACM configuration. The defaults stand for the global default leafs together
with the `default-deny` statements of the schema. -/
structure NacmConfig where
  enableNacm : Bool
  groups : List (Str × List Str)
  ruleLists : List RuleList
  defaults : Request → Action

section Evaluation

-- does the `path` leaf of a rule cover the data node of a request?
variable (covers : Str → Str → Bool)

/-- Does the `rule-type` leaf match? -/
def RuleType.matchesRequest : RuleType → Request → Bool
  | .rpcName name, .operation _ requested _ => name == str "*" || name == requested
  | .notificationName name, .notification _ requested _ =>
      name == str "*" || name == requested
  | .path instance_, .data _ _ node => covers instance_ node
  | .path instance_, .operation _ _ (some node) => covers instance_ node
  | .path instance_, .notification _ _ (some node) => covers instance_ node
  | _, _ => false

/-- Does the choice of the rule match? Without a leaf it matches every request. -/
def Rule.ruleTypeMatches (rule : Rule) (request : Request) : Bool :=
  match rule.ruleType with
  | none => true
  | some ruleType => ruleType.matchesRequest covers request

/-- Does the rule match? -/
def Rule.matchesRequest (rule : Rule) (request : Request) : Bool :=
  (rule.moduleName == str "*" || rule.moduleName == request.moduleName) &&
    rule.ruleTypeMatches covers request && rule.accessOperations.includes request.access

/-- The groups the user is a member of. -/
def NacmConfig.userGroups (config : NacmConfig) (user : Str) : List Str :=
  (config.groups.filter fun group => group.2.contains user).map Prod.fst

/-- Is the rule-list meant for one of the groups? -/
def RuleList.applies (ruleList : RuleList) (groups : List Str) : Bool :=
  ruleList.groups.any fun group => group == str "*" || groups.contains group

/-- The first matching rule of the rule-lists decides, if there is any. -/
def decideByRules (groups : List Str) (request : Request) :
    List RuleList → Option Action
  | [] => none
  | ruleList :: rest =>
      if ruleList.applies groups then
        match ruleList.rules.find? (·.matchesRequest covers request) with
        | some rule => some rule.action
        | none => decideByRules groups request rest
      else
        decideByRules groups request rest

/-- Access decision for a user. -/
def NacmConfig.evaluate (config : NacmConfig) (user : Str) (request : Request) : Action :=
  if !config.enableNacm then
    .permit
  else if (config.userGroups user).isEmpty then
    config.defaults request
  else
    (decideByRules covers (config.userGroups user) request config.ruleLists).getD
      (config.defaults request)

variable {covers}

/-- A rule for anonymous access other than the last one has no say in what is forbidden. -/
theorem not_matchesRequest_of_forbidden {rule : Rule} {request : Request}
    (valid : isRuleForAnonymousAccess rule = true) (forbidden : request.Forbidden) :
    rule.matchesRequest covers request = false := by
  simp only [isRuleForAnonymousAccess, Bool.or_eq_true, Bool.and_eq_true, beq_iff_eq] at valid
  rcases valid with read | ⟨exec, whitelisted⟩
  · have operations := AccessOperations.eq_of_valueStr_read read
    cases request with
    | data kind module_ node =>
        rcases forbidden with rfl | rfl | rfl <;>
          simp [Rule.matchesRequest, operations, AccessOperations.includes, Request.access]
    | operation module_ name node =>
        simp [Rule.matchesRequest, operations, AccessOperations.includes, Request.access]
    | notification module_ name node => exact forbidden.elim
  · have operations := AccessOperations.eq_of_valueStr_exec exec
    cases request with
    | data kind module_ node =>
        rcases forbidden with rfl | rfl | rfl <;>
          simp [Rule.matchesRequest, operations, AccessOperations.includes, Request.access]
    | operation module_ name node =>
        -- the whitelisted rule names its module and its operation, and neither name is `*`
        cases ruleType : rule.ruleType with
        | none => simp [Rule.rpcName, ruleType, isWhitelistedRPC] at whitelisted
        | some kind =>
            cases kind with
            | rpcName rpc =>
                simp only [Rule.rpcName, ruleType, isWhitelistedRPC, Bool.and_eq_true,
                  beq_iff_eq] at whitelisted
                obtain ⟨moduleName, rfl⟩ := whitelisted
                have noWildcard : str "ietf-subscribed-notifications" ≠ str "*" := by decide
                have noWildcard' : str "establish-subscription" ≠ str "*" := by decide
                by_contra matched
                simp only [Bool.not_eq_false, Rule.matchesRequest, Rule.ruleTypeMatches,
                  ruleType, RuleType.matchesRequest, moduleName, Request.moduleName,
                  Bool.and_eq_true, Bool.or_eq_true, beq_iff_eq, noWildcard, noWildcard',
                  false_or] at matched
                exact forbidden ⟨matched.1.1.symm, matched.1.2.symm⟩
            | notificationName name =>
                simp [Rule.rpcName, ruleType, isWhitelistedRPC] at whitelisted
            | path instance_ =>
                simp [Rule.rpcName, ruleType, isWhitelistedRPC] at whitelisted
    | notification module_ name node => exact forbidden.elim

/-- The closing rule matches whatever its `rule-type` leaf matches. -/
theorem wildcardDeny_matchesRequest {rule : Rule} (request : Request)
    (valid : isRuleWildcardDeny rule = true) :
    rule.matchesRequest covers request = rule.ruleTypeMatches covers request := by
  simp only [isRuleWildcardDeny, Bool.and_eq_true, beq_iff_eq] at valid
  obtain ⟨⟨_, moduleName⟩, operations⟩ := valid
  have all := AccessOperations.eq_of_valueStr_all operations
  simp [Rule.matchesRequest, moduleName, all, AccessOperations.includes]

/-- Everything forbidden is refused to the user. -/
def NacmConfig.Confines (covers : Str → Str → Bool) (config : NacmConfig) (user : Str) :
    Prop :=
  ∀ request : Request, request.Forbidden → config.evaluate covers user request = .deny

/-- Whatever the `rule-type` leaf of the closing rule leaves unmatched is refused by the
other rule-lists and the defaults.  Without such a leaf nothing is left unmatched. -/
def NacmConfig.ClosedBehind (covers : Str → Str → Bool) (config : NacmConfig) (user : Str) :
    Prop :=
  ∀ (firstRuleSet : RuleList) (rest : List RuleList) (last : Rule),
    config.ruleLists = firstRuleSet :: rest → firstRuleSet.rules.getLast? = some last →
    ∀ request : Request, request.Forbidden → last.ruleTypeMatches covers request = false →
      (decideByRules covers (config.userGroups user) request rest).getD
        (config.defaults request) = .deny

/-- An accepted configuration starts with a rule-list for the group whose rules are
harmless up to the closing one. -/
theorem validAnonymousNacmRules_cases {ruleLists : List RuleList} {anonGroup : Str}
    (valid : validAnonymousNacmRules (some ruleLists) anonGroup = true) :
    ∃ (firstRuleSet : RuleList) (rest : List RuleList) (last : Rule),
      ruleLists = firstRuleSet :: rest ∧ anonGroup ∈ firstRuleSet.groups ∧
      firstRuleSet.rules.getLast? = some last ∧
      (∀ rule ∈ firstRuleSet.rules.dropLast, isRuleForAnonymousAccess rule = true) ∧
      isRuleWildcardDeny last = true := by
  cases ruleLists with
  | nil => simp [validAnonymousNacmRules] at valid
  | cons firstRuleSet rest =>
      simp only [validAnonymousNacmRules] at valid
      split at valid
      · cases valid
      next inGroup =>
        cases closing : firstRuleSet.rules.getLast? with
        | none => simp [closing] at valid
        | some last =>
            simp only [closing, Bool.and_eq_true, List.all_eq_true] at valid
            simp only [Bool.not_eq_true', Bool.not_eq_false, List.any_eq_true,
              beq_iff_eq, exists_eq_right] at inGroup
            exact ⟨firstRuleSet, rest, last, rfl, inGroup, closing, valid.1, valid.2⟩

/-- Under an accepted configuration a forbidden request is decided by the closing rule
if its `rule-type` leaf matches, and behind the first rule-list otherwise. -/
theorem evaluate_forbidden (covers : Str → Str → Bool) {config : NacmConfig}
    {user anonGroup : Str} {firstRuleSet : RuleList} {rest : List RuleList} {last : Rule}
    {request : Request} (enabled : config.enableNacm = true)
    (member : anonGroup ∈ config.userGroups user)
    (lists : config.ruleLists = firstRuleSet :: rest)
    (inGroup : anonGroup ∈ firstRuleSet.groups)
    (closing : firstRuleSet.rules.getLast? = some last)
    (harmless : ∀ rule ∈ firstRuleSet.rules.dropLast, isRuleForAnonymousAccess rule = true)
    (wildcard : isRuleWildcardDeny last = true) (forbidden : request.Forbidden) :
    config.evaluate covers user request =
      if last.ruleTypeMatches covers request then .deny
      else (decideByRules covers (config.userGroups user) request rest).getD
        (config.defaults request) := by
  have applies : firstRuleSet.applies (config.userGroups user) = true := by
    simp only [RuleList.applies, List.any_eq_true, Bool.or_eq_true]
    exact ⟨anonGroup, inGroup, .inr (by simpa using member)⟩
  have someGroup : (config.userGroups user).isEmpty = false := by
    cases groups : config.userGroups user with
    | nil => simp [groups] at member
    | cons group groups => rfl
  have split : firstRuleSet.rules = firstRuleSet.rules.dropLast ++ [last] :=
    (List.dropLast_append_getLast? last closing).symm
  have skipped : firstRuleSet.rules.dropLast.find? (·.matchesRequest covers request) = none := by
    rw [List.find?_eq_none]
    intro rule ruleMem
    rw [not_matchesRequest_of_forbidden (harmless rule ruleMem) forbidden]
    exact Bool.false_ne_true
  have found : firstRuleSet.rules.find? (·.matchesRequest covers request) =
      if last.ruleTypeMatches covers request then some last else none := by
    rw [split, List.find?_append, skipped, Option.none_or, List.find?_singleton,
      wildcardDeny_matchesRequest request wildcard]
  have deny : last.action = .deny := by
    simp only [isRuleWildcardDeny, Bool.and_eq_true, beq_iff_eq] at wildcard
    exact wildcard.1.1
  simp only [NacmConfig.evaluate, enabled, someGroup, lists, decideByRules, applies, found,
    Bool.not_true, Bool.false_eq_true, if_false, if_true]
  split_ifs with matched
  · simp [deny]
  · rfl

/-- The check confines the anonymous user exactly when the closing rule is not narrowed
by a `rule-type` leaf, or when what the leaf leaves out is refused anyway. -/
theorem validAnonymousNacmRules_confines_iff (covers : Str → Str → Bool)
    (config : NacmConfig) (user anonGroup : Str) (enabled : config.enableNacm = true)
    (member : anonGroup ∈ config.userGroups user) :
    (validAnonymousNacmRules (some config.ruleLists) anonGroup = true →
        config.Confines covers user) ↔
      (validAnonymousNacmRules (some config.ruleLists) anonGroup = true →
        config.ClosedBehind covers user) := by
  refine forall_congr' fun valid => ?_
  obtain ⟨firstRuleSet, rest, last, lists, inGroup, closing, harmless, wildcard⟩ :=
    validAnonymousNacmRules_cases valid
  have decided := fun (request : Request) (forbidden : request.Forbidden) =>
    evaluate_forbidden covers enabled member lists inGroup closing harmless
      wildcard forbidden
  constructor
  · intro confined first' rest' last' lists' closing' request forbidden unmatched
    rw [lists, List.cons.injEq] at lists'
    obtain ⟨rfl, rfl⟩ := lists'
    rw [closing, Option.some.injEq] at closing'
    subst closing'
    have refused := confined request forbidden
    rw [decided request forbidden, unmatched] at refused
    exact refused
  · intro closed request forbidden
    rw [decided request forbidden]
    split_ifs with matched
    · rfl
    · exact closed firstRuleSet rest last lists closing request forbidden
        (Bool.eq_false_iff.mpr matched)

end Evaluation

/-- One rule-list for the group of the anonymous user, closed by a rule which denies
everything its `rule-type` leaf matches, and permissive defaults. -/
def closedBy (ruleType : Option RuleType) : NacmConfig where
  enableNacm := true
  groups := [(str "yangnobody", [str "yangnobody"])]
  ruleLists :=
    [{ groups := [str "yangnobody"]
       rules := [⟨str "ietf-system", none, .bits false true false false false, .permit⟩,
         ⟨str "*", ruleType, .all, .deny⟩] }]
  defaults := fun _ => .permit

/-- A plain closing rule keeps everything forbidden away from the user. -/
theorem closedBy_none_confines :
    (closedBy none).Confines (fun rule node => rule == node) (str "yangnobody") := by
  refine (validAnonymousNacmRules_confines_iff _ (closedBy none) (str "yangnobody")
    (str "yangnobody") rfl (by decide)).mpr (fun _ => ?_) (by decide)
  intro firstRuleSet rest last lists closing request _ unmatched
  have sameList : firstRuleSet.rules.getLast? =
      some ⟨str "*", none, .all, .deny⟩ := by
    rw [← (List.cons.inj lists).1]
    rfl
  rw [closing, Option.some.injEq] at sameList
  simp [sameList, Rule.ruleTypeMatches] at unmatched

/-- A closing rule which is narrowed to one data node is accepted, and the defaults then
let the anonymous user create another one. -/
theorem closedBy_path_permits :
    validAnonymousNacmRules
        (some (closedBy (some (.path (str "/ietf-system:system")))).ruleLists)
        (str "yangnobody") = true ∧
      str "yangnobody" ∈
        (closedBy (some (.path (str "/ietf-system:system")))).userGroups (str "yangnobody") ∧
      (Request.data .create (str "example") (str "/example:a")).Forbidden ∧
      (closedBy (some (.path (str "/ietf-system:system")))).evaluate
        (fun rule node => rule == node) (str "yangnobody")
        (.data .create (str "example") (str "/example:a")) = .permit := by
  refine ⟨by decide, by decide, .inl rfl, by decide⟩

end Rousette.Auth
