import Rousette.Libyang.Example
import Rousette.Restconf.UriErrors
import Rousette.Restconf.UriPaths
import Rousette.Restconf.UriRecognition

/-!
# Paths as libyang reads them

A data path is a sequence of steps.  Each of them has a name, which may be qualified by a
module, and predicates: `[name=literal]` for a key of a list entry, `[.=literal]` for the
value of an entry of a leaf-list.  A literal is delimited by one kind of quotes and does not
contain it.

What `asLibyangPath` writes is read back here step by step, with all the key values of the
segments in it.
-/

namespace Rousette.Restconf

open Library Libyang

/-- A step of a path: a name, and the keys in the predicates with their values. -/
structure PathStep where
  ident : ApiIdentifier
  predicates : List (Str × Str)
  deriving DecidableEq, Repr

namespace DataPath

open Parser Impl.Grammar

/-! ## The grammar -/

/-- The name of a key, or the dot. -/
def keyName : Parser Str := orElse (do lit (str "."); return str ".") identifier

/-- A literal in single or in double quotes. -/
def literal : Parser Str := orElse (quoted singleQuote) (quoted doubleQuote)

def keyValue : Parser Str := do
  lit (str "=")
  let value ← literal
  lit (str "]")
  return value

def predicate : Parser (Str × Str) := do
  lit (str "[")
  let name ← keyName
  let value ← keyValue
  return (name, value)

/-- The predicates behind a name. -/
def predicates : Parser (List (Str × Str)) := many predicate

def step : Parser PathStep := do
  lit (str "/")
  let ident ← apiIdentifier
  let keys ← predicates
  return ⟨ident, keys⟩

/-- The steps of a path, if the whole text is one. -/
def read (text : Str) : Option (List PathStep) :=
  match many step text with
  | .ok steps [] => some steps
  | _ => none

/-! ## Phrases -/

/-- A literal, by its quotes. -/
abbrev Literal := { text : Str // singleQuote ∉ text } ⊕ { text : Str // doubleQuote ∉ text }

def Literal.text : Literal → Str :=
  Sum.elim (fun text => [singleQuote] ++ text.1 ++ [singleQuote])
    fun text => [doubleQuote] ++ text.1 ++ [doubleQuote]

def Literal.value : Literal → Str := Sum.elim Subtype.val Subtype.val

/-- The dot, or a name. -/
abbrev KeyName := Unit ⊕ Identifier

def KeyName.text : KeyName → Str := Sum.elim (fun _ => str ".") Identifier.text

abbrev Predicate := KeyName × Literal

def Predicate.text (phrase : Predicate) : Str :=
  str "[" ++ (KeyName.text phrase.1 ++ (str "=" ++ (Literal.text phrase.2 ++ str "]")))

def Predicate.value (phrase : Predicate) : Str × Str :=
  (KeyName.text phrase.1, Literal.value phrase.2)

theorem recognizes_literal :
    Recognizes literal Literal.text Literal.value (fun _ => True) :=
  (recognizes_quoted singleQuote).orElse (recognizes_quoted doubleQuote) fun _ _ => rfl

theorem recognizes_keyName :
    Recognizes keyName KeyName.text KeyName.text (Stops isIdentifierChar) := by
  have dot : Recognizes (do lit (str "."); return str ".") (fun _ : Unit => str ".")
      (fun _ => str ".") (Stops isIdentifierChar) := by
    constructor
    case sound =>
      intro input result rest parsed
      obtain ⟨_, _, first, finished⟩ := bind_eq_ok.mp parsed
      cases finished
      exact ⟨(), lit_eq_ok.mp first, rfl⟩
    case complete =>
      intro _ rest _
      rw [bind_apply, lit_append]
      rfl
  refine dot.orElse recognizes_identifier ?_
  intro name rest
  have start : Stops (· == chr '.') (name.text ++ rest) := by
    refine stops_cons.mpr (beq_eq_false_iff_ne.mpr ?_)
    intro same
    have isStart := name.isStart
    rw [same] at isStart
    cases isStart
  exact lit_bind_fail (lit_fail start rfl)

theorem recognizes_keyValue :
    Recognizes keyValue (fun phrase : Literal => str "=" ++ (phrase.text ++ str "]"))
      Literal.value (fun _ => True) :=
  (recognizes_literal.bind_lit fun _ => trivial).lit_bind (str "=")

theorem recognizes_predicate :
    Recognizes predicate Predicate.text Predicate.value (fun _ => True) := by
  refine (recognizes_keyName.seq recognizes_keyValue Prod.mk ?_).lit_bind (str "[")
  intro phrase rest _
  exact stops_cons.mpr (by decide)

theorem recognizes_predicates :
    Recognizes predicates (List.flatMap Predicate.text) (List.map Predicate.value)
      (Stops (· == chr '[')) := by
  refine recognizes_predicate.many ?_ (fun _ _ => trivial) ?_
  · intro phrase
    simp [Predicate.text, str]
  · intro rest stops
    exact ⟨trivial, lit_bind_fail (lit_fail stops rfl)⟩

/-- A step, by its name and its predicates. -/
abbrev StepPhrase := ApiName × List Predicate

def StepPhrase.text (phrase : StepPhrase) : Str :=
  str "/" ++ (ApiName.text phrase.1 ++ phrase.2.flatMap Predicate.text)

def StepPhrase.value (phrase : StepPhrase) : PathStep :=
  ⟨ApiName.value phrase.1, phrase.2.map Predicate.value⟩

theorem recognizes_step :
    Recognizes step StepPhrase.text StepPhrase.value
      (Stops fun c => continuesName c || c == chr '[') := by
  have wider : Recognizes predicates (List.flatMap Predicate.text) (List.map Predicate.value)
      (Stops fun c => continuesName c || c == chr '[') := by
    constructor
    case sound => exact recognizes_predicates.sound
    case complete =>
      intro phrases rest stops
      exact recognizes_predicates.complete phrases
        (stops.mono fun c accepted => by simp [accepted])
  refine (recognizes_apiIdentifier.seq wider PathStep.mk ?_).lit_bind (str "/")
  intro phrases rest stops
  cases phrases with
  | nil => exact stops.mono fun c accepted => by simp [accepted]
  | cons phrase phrases => exact stops_cons.mpr (by decide)

theorem recognizes_steps :
    Recognizes (many step) (List.flatMap StepPhrase.text) (List.map StepPhrase.value)
      (· = []) := by
  refine recognizes_step.many ?_ ?_ ?_
  · intro phrase
    simp [StepPhrase.text, str]
  · intro phrase rest
    exact stops_cons.mpr (by decide)
  · rintro rest rfl
    exact ⟨stops_nil _, rfl⟩

/-- A path is read as the steps which it was written from. -/
theorem read_flatMap (phrases : List StepPhrase) :
    read (phrases.flatMap StepPhrase.text) = some (phrases.map StepPhrase.value) := by
  have parsed := recognizes_steps.complete phrases rfl
  rw [List.append_nil] at parsed
  simp only [read, parsed]

/-- What is read as a path was written from steps. -/
theorem exists_of_read {text : Str} {steps : List PathStep} (known : read text = some steps) :
    ∃ phrases : List StepPhrase,
      text = phrases.flatMap StepPhrase.text ∧ phrases.map StepPhrase.value = steps := by
  simp only [read] at known
  split at known
  case h_1 found parsed =>
    cases known
    obtain ⟨phrases, shape, values⟩ := recognizes_steps.sound parsed
    exact ⟨phrases, by rw [shape, List.append_nil], values.symm⟩
  case h_2 => cases known

end DataPath

/-! ## What is written -/

open Impl.Grammar (IsIdentifier)
open DataPath (Literal Predicate StepPhrase)

section Writing

variable {S : Type} {ctx : Context S}

/-- The names in a schema are identifiers of YANG. -/
structure SchemaNames (ctx : Context S) : Prop where
  name : ∀ node, IsIdentifier (ctx.name node)
  moduleName : ∀ node, IsIdentifier (ctx.moduleName node)

variable (ctx) in
/-- Is the node of the same module as its schema parent? -/
def inModuleOfParent (node : S) : Bool :=
  (ctx.parent node).any fun parent => ctx.moduleName parent = ctx.moduleName node

variable (ctx) in
/-- The name of a node as `maybeQualified` writes it. -/
def writtenName (node : S) : ApiIdentifier :=
  ⟨if inModuleOfParent ctx node then none else some (ctx.moduleName node), ctx.name node⟩

variable (ctx) in
/-- The key values of a segment with the names which predicates give them. -/
def namedKeys (node : S) (keys : List Str) : List (Str × Str) :=
  match ctx.nodeType node with
  | .list => ((ctx.keys node).map ctx.name).zip keys
  | .leaflist => keys.map fun key => (str ".", key)
  | _ => []

variable (ctx) in
/-- The step of a path for a node with key values. -/
def writtenStep (step : Server.Step S) : PathStep :=
  ⟨writtenName ctx step.1, namedKeys ctx step.1 step.2⟩

theorem exists_literal {text escaped : Str} (built : escapeListKey text = .ok escaped) :
    ∃ phrase : Literal, phrase.text = escaped ∧ phrase.value = text := by
  unfold escapeListKey at built
  split at built
  · cases built
  next unmixed =>
    split at built
    next single =>
      cases built
      have noDouble : doubleQuote ∉ text := by
        intro double
        simp [mixesQuotes, List.contains_iff_mem.mp single, double] at unmixed
      exact ⟨.inr ⟨text, noDouble⟩, rfl, rfl⟩
    next noSingle =>
      cases built
      exact ⟨.inl ⟨text, fun member => noSingle (List.contains_iff_mem.mpr member)⟩, rfl, rfl⟩

theorem exists_predicates {keys : List S} {values : List Str} {predicate : Str}
    (named : ∀ key ∈ keys, IsIdentifier (ctx.name key))
    (built : listKeyPredicate ctx keys values = .ok predicate) :
    ∃ phrases : List Predicate, phrases.flatMap Predicate.text = predicate ∧
      phrases.map Predicate.value = (keys.map ctx.name).zip values := by
  induction keys generalizing values predicate with
  | nil =>
      cases built
      exact ⟨[], rfl, rfl⟩
  | cons key keys ih =>
      cases values with
      | nil => cases built
      | cons value values =>
          simp only [listKeyPredicate, except_bind_eq_ok] at built
          obtain ⟨escaped, escapes, rest, others, result⟩ := built
          cases result
          obtain ⟨namedKey, namedKeys⟩ := List.forall_mem_cons.mp named
          obtain ⟨name, spelled⟩ := namedKey.exists_text
          obtain ⟨literal, rfl, rfl⟩ := exists_literal escapes
          obtain ⟨phrases, rfl, values⟩ := ih namedKeys others
          refine ⟨(.inr name, literal) :: phrases, ?_, ?_⟩
          · simp only [List.flatMap_cons, Predicate.text, DataPath.KeyName.text, Sum.elim_inr,
              spelled, List.append_assoc]
          · simp only [List.map_cons, values, Predicate.value, DataPath.KeyName.text,
              Sum.elim_inr, spelled, List.zip_cons_cons]

theorem exists_leaflistPredicate {value predicate : Str}
    (built : leaflistKeyPredicate value = .ok predicate) :
    ∃ phrase : Predicate, phrase.text = predicate ∧ phrase.value = (str ".", value) := by
  simp only [leaflistKeyPredicate, except_bind_eq_ok] at built
  obtain ⟨escaped, escapes, result⟩ := built
  cases result
  obtain ⟨literal, rfl, rfl⟩ := exists_literal escapes
  refine ⟨(.inl (), literal), ?_, rfl⟩
  simp only [Predicate.text, DataPath.KeyName.text, Sum.elim_inl, List.append_assoc]
  rfl

theorem reportInvalidArgument_eq_ok {α : Type} {result : Except Exception α} {value : α} :
    reportInvalidArgument result = .ok value ↔ result = .ok value := by
  unfold reportInvalidArgument
  split <;> simp

theorem exists_keysPredicate (named : SchemaNames ctx) {node : S} {keys : List Str}
    {predicate : Str} (built : keysPredicate ctx node keys = .ok predicate) :
    ∃ phrases : List Predicate, phrases.flatMap Predicate.text = predicate ∧
      phrases.map Predicate.value = namedKeys ctx node keys := by
  unfold keysPredicate at built
  unfold namedKeys
  cases kind : ctx.nodeType node with
  | list =>
      simp only [kind] at built
      split at built
      · cases built
      · split at built
        · cases built
        · exact exists_predicates (fun key _ => named.name key)
            (reportInvalidArgument_eq_ok.mp built)
  | leaflist =>
      simp only [kind] at built
      split at built
      next key =>
        obtain ⟨phrase, rfl, value⟩ :=
          exists_leaflistPredicate (reportInvalidArgument_eq_ok.mp built)
        exact ⟨[phrase], by simp, by simp [value]⟩
      · cases built
  | _ =>
      simp only [kind] at built
      split at built
      · cases built
      · cases built
        exact ⟨[], rfl, rfl⟩

theorem exists_name (named : SchemaNames ctx) (node : S) :
    ∃ name : Impl.Grammar.ApiName, name.text = maybeQualified ctx node ∧
      name.value = writtenName ctx node := by
  obtain ⟨name, spelled⟩ := (named.name node).exists_text
  obtain ⟨modulePrefix, spelledModule⟩ := (named.moduleName node).exists_text
  have qualified : ∃ phrase : Impl.Grammar.ApiName,
      phrase.text = ctx.moduleName node ++ str ":" ++ ctx.name node ∧
        phrase.value = ⟨some (ctx.moduleName node), ctx.name node⟩ :=
    ⟨⟨some modulePrefix, name⟩, by rw [Impl.Grammar.ApiName.text, spelled, spelledModule],
      by rw [Impl.Grammar.ApiName.value, Option.map_some, spelled, spelledModule]⟩
  cases above : ctx.parent node with
  | none => simpa [maybeQualified, writtenName, inModuleOfParent, above] using qualified
  | some parent =>
      by_cases same : ctx.moduleName parent = ctx.moduleName node
      · refine ⟨⟨none, name⟩, ?_, ?_⟩
        · simpa only [maybeQualified, above, same, if_true, Impl.Grammar.ApiName.text] using spelled
        · simp [Impl.Grammar.ApiName.value, writtenName, inModuleOfParent, above, same, spelled]
      · simpa [maybeQualified, writtenName, inModuleOfParent, above, same] using qualified

/-- The path which is built for segments has a step for each of their nodes, with all of
their key values. -/
theorem exists_steps (named : SchemaNames ctx) {current : Option S} {res : Str}
    {segments : List PathSegment} {resolved : SchemaNodeAndPath S}
    (walked : asLibyangPathFrom ctx current res segments = .ok resolved) :
    ∃ steps, ∃ phrases : List StepPhrase,
      Server.resolveSegments ctx current segments = .ok steps ∧
      resolved.dataPath = res ++ phrases.flatMap StepPhrase.text ∧
      phrases.map StepPhrase.value = steps.map (writtenStep ctx) := by
  induction segments generalizing current res with
  | nil =>
      cases walked
      exact ⟨[], [], rfl, by simp, rfl⟩
  | cons segment rest ih =>
      simp only [asLibyangPathFrom, except_bind_eq_ok] at walked
      obtain ⟨node, found, predicate, built, _, _, walked⟩ := walked
      obtain ⟨steps, phrases, resolves, path, written⟩ := ih walked
      obtain ⟨name, spelled, ident⟩ := exists_name named node
      obtain ⟨keys, rfl, values⟩ := exists_keysPredicate named built
      refine ⟨(node, segment.keys) :: steps, (name, keys) :: phrases, ?_, ?_, ?_⟩
      · simp only [Server.resolveSegments, found, resolves, bind, Except.bind, pure, Except.pure]
      · rw [path, List.flatMap_cons, StepPhrase.text, spelled]
        simp only [List.append_assoc]
      · rw [List.map_cons, List.map_cons, written, StepPhrase.value, ident, values]
        rfl

/-- A path is read back as the steps which it has for the nodes of the segments. -/
theorem read_asLibyangPath (named : SchemaNames ctx) {segments : List PathSegment}
    {resolved : SchemaNodeAndPath S} (accepted : asLibyangPath ctx segments = .ok resolved) :
    ∃ steps, Server.resolveSegments ctx none segments = .ok steps ∧
      DataPath.read resolved.dataPath = some (steps.map (writtenStep ctx)) := by
  obtain ⟨steps, phrases, resolves, path, written⟩ := exists_steps named accepted
  refine ⟨steps, resolves, ?_⟩
  rw [path, List.nil_append, DataPath.read_flatMap, written]

/-! ## Key values -/

theorem leaflistKeyPredicate_isOk_iff {value : Str} :
    (∃ predicate, leaflistKeyPredicate value = .ok predicate) ↔ mixesQuotes value = false := by
  rw [← escapeListKey_isOk_iff]
  simp only [leaflistKeyPredicate, except_bind_eq_ok]
  constructor
  · rintro ⟨_, escaped, escapes, _⟩
    exact ⟨escaped, escapes⟩
  · rintro ⟨escaped, escapes⟩
    exact ⟨_, escaped, escapes, rfl⟩

theorem read_predicates {phrases : List Predicate} :
    DataPath.predicates (phrases.flatMap Predicate.text) =
      .ok (phrases.map Predicate.value) [] := by
  have parsed := DataPath.recognizes_predicates.complete phrases (Parser.stops_nil _)
  rwa [List.append_nil] at parsed

/-- No key value is lost or left over in a predicate, and none of them mixes quotes. -/
theorem keys_of_keysPredicate {node : S} {keys : List Str} {predicate : Str}
    (built : keysPredicate ctx node keys = .ok predicate) :
    (namedKeys ctx node keys).map Prod.snd = keys ∧ ∀ key ∈ keys, mixesQuotes key = false := by
  unfold keysPredicate at built
  unfold namedKeys
  cases kind : ctx.nodeType node with
  | list =>
      simp only [kind] at built
      split at built
      · cases built
      · split at built
        · cases built
        next same =>
          have count : keys.length = (ctx.keys node).length := not_not.mp same
          have unmixed := (listKeyPredicate_isOk_iff.mp
            ⟨_, reportInvalidArgument_eq_ok.mp built⟩).2
          rw [← count, List.take_length] at unmixed
          exact ⟨List.map_snd_zip (by simp [count]), unmixed⟩
  | leaflist =>
      simp only [kind] at built
      split at built
      next key =>
        have unmixed := leaflistKeyPredicate_isOk_iff.mp ⟨_, reportInvalidArgument_eq_ok.mp built⟩
        simpa using unmixed
      · cases built
  | _ =>
      simp only [kind] at built
      split at built
      · cases built
      next none =>
        have empty : keys = [] := by simpa using none
        simp [empty]

theorem keys_of_asLibyangPathFrom {current : Option S} {res : Str}
    {segments : List PathSegment} {resolved : SchemaNodeAndPath S} {steps : List (Server.Step S)}
    (walked : asLibyangPathFrom ctx current res segments = .ok resolved)
    (resolves : Server.resolveSegments ctx current segments = .ok steps) :
    (∀ step ∈ steps, (namedKeys ctx step.1 step.2).map Prod.snd = step.2) ∧
      ∀ segment ∈ segments, ∀ key ∈ segment.keys, mixesQuotes key = false := by
  induction segments generalizing current res steps with
  | nil =>
      cases resolves
      simp
  | cons segment rest ih =>
      simp only [asLibyangPathFrom, except_bind_eq_ok] at walked
      obtain ⟨node, found, predicate, built, _, _, walked⟩ := walked
      simp only [Server.resolveSegments, found, except_bind_eq_ok] at resolves
      obtain ⟨_, same, below, further, result⟩ := resolves
      cases same
      cases result
      obtain ⟨complete, unmixed⟩ := keys_of_keysPredicate built
      obtain ⟨completeBelow, unmixedBelow⟩ := ih walked further
      exact ⟨List.forall_mem_cons.mpr ⟨complete, completeBelow⟩,
        List.forall_mem_cons.mpr ⟨unmixed, unmixedBelow⟩⟩

/-- Key values cannot get out of their predicates: reading a predicate back gives the names
and the values it was built from, on its own as well as within a path, and the values for
which there is no predicate are those which contain both kinds of quotes. -/
theorem keyPredicates_read_back (named : SchemaNames ctx) :
    (∀ (keys : List S) (values : List Str), values.length = keys.length →
      ((∃ predicate, listKeyPredicate ctx keys values = .ok predicate) ↔
        ∀ value ∈ values, mixesQuotes value = false) ∧
      ∀ predicate, listKeyPredicate ctx keys values = .ok predicate →
        DataPath.predicates predicate = .ok ((keys.map ctx.name).zip values) []) ∧
    (∀ value,
      ((∃ predicate, leaflistKeyPredicate value = .ok predicate) ↔ mixesQuotes value = false) ∧
      ∀ predicate, leaflistKeyPredicate value = .ok predicate →
        DataPath.predicates predicate = .ok [(str ".", value)] []) ∧
    (∀ segments resolved, asLibyangPath ctx segments = .ok resolved →
      ∃ steps, Server.resolveSegments ctx none segments = .ok steps ∧
        DataPath.read resolved.dataPath = some (steps.map (writtenStep ctx)) ∧
        steps.map Prod.snd = segments.map PathSegment.keys ∧
        ∀ step ∈ steps, (namedKeys ctx step.1 step.2).map Prod.snd = step.2) ∧
    ∀ segments : List PathSegment,
      (∃ segment ∈ segments, ∃ value ∈ segment.keys, mixesQuotes value = true) →
      ∃ error, asLibyangPath ctx segments = .error (.errorResponse error) := by
  refine ⟨?_, ?_, ?_, ?_⟩
  · intro keys values count
    constructor
    · rw [listKeyPredicate_isOk_iff, ← count, List.take_length]
      exact and_iff_right (Nat.le_refl _)
    · intro predicate built
      obtain ⟨phrases, rfl, values⟩ := exists_predicates (fun key _ => named.name key) built
      rw [read_predicates, values]
  · intro value
    refine ⟨leaflistKeyPredicate_isOk_iff, ?_⟩
    intro predicate built
    obtain ⟨phrase, rfl, value⟩ := exists_leaflistPredicate built
    simpa [value] using @read_predicates [phrase]
  · intro segments resolved accepted
    obtain ⟨steps, resolves, path⟩ := read_asLibyangPath named accepted
    obtain ⟨_, again, keys, _⟩ := Server.resolveSegments_of_asLibyangPathFrom accepted
    cases resolves.symm.trans again
    exact ⟨steps, resolves, path, keys, (keys_of_asLibyangPathFrom accepted resolves).1⟩
  · rintro segments ⟨segment, member, value, inKeys, mixed⟩
    cases outcome : asLibyangPath ctx segments with
    | ok resolved =>
        obtain ⟨steps, resolves, _⟩ := Server.resolveSegments_of_asLibyangPathFrom outcome
        have unmixed :=
          (keys_of_asLibyangPathFrom outcome resolves).2 segment member value inKeys
        rw [mixed] at unmixed
        cases unmixed
    | error exception =>
        have response := throws_asLibyangPathFrom none [] segments exception outcome
        cases exception with
        | errorResponse error => exact ⟨error, rfl⟩
        | _ => exact response.elim

theorem exampleSchema_named : SchemaNames Example.schema where
  name node := by cases node <;> decide
  moduleName _ := show IsIdentifier (str "example") by decide

/-- A key value which looks like the end of a predicate. -/
def predicateLike : Str := str "a'][name='b"

theorem predicateLike_read_back :
    listKeyPredicate Example.schema [Example.Node.listName] [predicateLike] =
        .ok (str "[name=\"a'][name='b\"]") ∧
      DataPath.predicates (str "[name=\"a'][name='b\"]") =
        .ok [(str "name", predicateLike)] [] := by
  have built : listKeyPredicate Example.schema [Example.Node.listName] [predicateLike] =
      .ok (str "[name=\"a'][name='b\"]") := by
    decide
  exact ⟨built, ((keyPredicates_read_back exampleSchema_named).1 [Example.Node.listName]
    [predicateLike] rfl).2 _ built⟩

end Writing

end Rousette.Restconf
