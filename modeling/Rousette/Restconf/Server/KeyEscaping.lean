import Rousette.Restconf.Server.CreatedEdit
import Rousette.Restconf.UriErrors

/-!
# Key values which cannot be escaped

`checkKeysMismatch` puts the key values of the payload and of the URI into libyang
paths.  A value with both kinds of quotes cannot be written there, and the exception
for it is not one of those which are reported.
-/

namespace Rousette.Restconf.Server

open Library Libyang Program Exception

section Escaping

variable {S : Type} [DecidableEq S] (calls : Calls S)

/-- The key values of a segment cannot be used for a list: there are too few of them, or
one of those which are used mixes quotes. -/
def UnfitKeys (list : S) (keys : List Str) : Prop :=
  keys.length < (calls.ctx.keys list).length ∨
    ∃ value ∈ keys.take (calls.ctx.keys list).length, mixesQuotes value = true

/-- A comparison of the given keys of a list entry gets to one which cannot be written into
a path: the keys before it are there and match. -/
def UnescapableFrom (node : DataNode S) (pathPrefix : Str) (uriKeys : List Str) (index : Nat)
    (keys : List S) : Prop :=
  ∃ before key after keyNode, keys = before ++ key :: after ∧
    checkListKeys calls node pathPrefix uriKeys index before = .ok none ∧
    node.child? key = some keyNode ∧
    (mixesQuotes keyNode.valueStr = true ∨ UnfitKeys calls node.schema uriKeys)

/-- A comparison of a node with the last path segment gets to a value which cannot be
written into a path. -/
def Unescapable (node : DataNode S) (lyParentPath : Str) (lastPathSegment : PathSegment) :
    Prop :=
  match calls.ctx.nodeType node.schema with
  | .list =>
      UnescapableFrom calls node
        (lyParentPath ++ str "/" ++ lastPathSegment.apiIdent.qualifiedName) lastPathSegment.keys 0
        (calls.ctx.keys node.schema)
  | .leaflist =>
      mixesQuotes node.valueStr = true ∨
        ∀ key ∈ lastPathSegment.keys.head?, mixesQuotes key = true
  | _ => False

end Escaping

theorem throws_libyang {α : Type} (result : Except Libyang.ErrorWithCode α) :
    Throws IsLibyang (raise result) := by
  intro exception failed
  obtain ⟨error, _, rfl⟩ := raise_eq_error.mp failed
  trivial

theorem throws_raise {α : Type} (result : Except Libyang.ErrorWithCode α) :
    Throws IsLocal (raise result) :=
  (throws_libyang result).mono fun _ raised => raised.isLocal

theorem throws_compareKeyValue {S : Type} (calls : Calls S) (pathA pathB : Str) :
    Throws IsLocal (compareKeyValue calls pathA pathB) := by
  apply Throws.bind (throws_raise _)
  intro a _
  apply Throws.bind (throws_raise _)
  intro b _
  exact .ok _

variable {S : Type} [DecidableEq S] {calls : Calls S}

/-! ## Lists -/

theorem assignKey_eq_ok {keys : List Str} {index : Nat} {value : Str}
    (inside : index < keys.length) : assignKey keys index value = .ok (keys.set index value) :=
  if_pos inside

/-- Replacing one of the values which are used. -/
theorem forall_mem_take_set_iff {property : Str → Prop} {values : List Str} {index count : Nat}
    {value : Str} (used : index < count) (enough : count ≤ values.length)
    (others : ∀ other ∈ values.take count, property other) :
    (∀ other ∈ (values.set index value).take count, property other) ↔ property value := by
  rw [List.take_set]
  constructor
  · intro all
    exact all value (List.mem_set (by simp; omega) value)
  · intro new other member
    rcases List.mem_or_eq_of_mem_set member with old | rfl
    · exact others other old
    · exact new

omit [DecidableEq S] in
/-- The paths for one key can be built exactly if the values fit. -/
theorem keyPaths_isOk_iff {list key : S} {pathPrefix : Str} {uriKeys : List Str} {index : Nat}
    {value : Str} (inside : index < (calls.ctx.keys list).length) :
    (∃ paths, keyPaths calls list key pathPrefix uriKeys index value = .ok paths) ↔
      ¬(mixesQuotes value = true ∨ UnfitKeys calls list uriKeys) := by
  have predicate : ∀ values : List Str,
      (∃ text, listKeyPredicate calls.ctx (calls.ctx.keys list) values = .ok text) ↔
        (calls.ctx.keys list).length ≤ values.length ∧
          ∀ other ∈ values.take (calls.ctx.keys list).length, mixesQuotes other = false :=
    fun values => listKeyPredicate_isOk_iff
  have unfit : ¬UnfitKeys calls list uriKeys ↔
      (calls.ctx.keys list).length ≤ uriKeys.length ∧
        ∀ other ∈ uriKeys.take (calls.ctx.keys list).length, mixesQuotes other = false := by
    simp [UnfitKeys]
  rw [not_or, unfit, Bool.not_eq_true]
  constructor
  case mp =>
    rintro ⟨paths, built⟩
    simp only [keyPaths, except_bind_eq_ok] at built
    obtain ⟨assigned, assigns, fromData, builtData, fromUri, builtUri, _⟩ := built
    obtain ⟨enough, others⟩ := (predicate uriKeys).mp ⟨fromUri, builtUri⟩
    rw [assignKey_eq_ok (Nat.lt_of_lt_of_le inside enough), Except.ok.injEq] at assigns
    subst assigns
    have fits := ((predicate _).mp ⟨fromData, builtData⟩).2
    exact ⟨(forall_mem_take_set_iff inside enough others).mp fits, enough, others⟩
  case mpr =>
    rintro ⟨escapable, enough, others⟩
    have fits := (forall_mem_take_set_iff inside enough others).mpr escapable
    obtain ⟨fromData, builtData⟩ := (predicate (uriKeys.set index value)).mpr
      ⟨by rw [List.length_set]; exact enough, fits⟩
    obtain ⟨fromUri, builtUri⟩ := (predicate uriKeys).mpr ⟨enough, others⟩
    simp only [keyPaths, except_bind_eq_ok]
    exact ⟨_, _, assignKey_eq_ok (Nat.lt_of_lt_of_le inside enough), fromData, builtData, fromUri,
      builtUri,
      rfl⟩

omit [DecidableEq S] in
/-- Paths which cannot be built are not reported. -/
theorem throws_keyPaths {list key : S} {pathPrefix : Str} {uriKeys : List Str} {index : Nat}
    {value : Str} :
    Throws (fun exception => ¬exception.IsMapped)
      (keyPaths calls list key pathPrefix uriKeys index value) := by
  have predicate : ∀ values : List Str, Throws (fun exception => ¬exception.IsMapped)
      (listKeyPredicate calls.ctx (calls.ctx.keys list) values) := by
    intro values exception failed
    rcases listKeyPredicate_error failed with rfl | ⟨what, rfl⟩
    · exact id
    · exact id
  apply Throws.bind
  · intro exception failed
    unfold assignKey at failed
    split at failed
    · cases failed
    · cases failed
      exact id
  intro keysWithValueFromData _
  apply Throws.bind (predicate _)
  intro fromData _
  apply Throws.bind (predicate _)
  intro fromUri _
  exact .ok _

section Loop

variable {node : DataNode S} {pathPrefix : Str} {uriKeys : List Str} {index : Nat}

/-- A key which matches is passed. -/
theorem unescapableFrom_cons_iff {key : S} {rest : List S} {keyNode : DataNode S}
    {paths : Str × Str} (found : node.child? key = some keyNode)
    (built : keyPaths calls node.schema key pathPrefix uriKeys index keyNode.valueStr = .ok paths)
    (same : compareKeyValue calls paths.1 paths.2 = .ok true)
    (escapable : ¬(mixesQuotes keyNode.valueStr = true ∨ UnfitKeys calls node.schema uriKeys)) :
    UnescapableFrom calls node pathPrefix uriKeys index (key :: rest) ↔
      UnescapableFrom calls node pathPrefix uriKeys (index + 1) rest := by
  have step : ∀ keys, checkListKeys calls node pathPrefix uriKeys index (key :: keys) =
      checkListKeys calls node pathPrefix uriKeys (index + 1) keys := by
    intro keys
    simp only [checkListKeys, found, built, bind, Except.bind, same, if_true]
  constructor
  case mp =>
    rintro ⟨before, other, after, otherNode, shape, passed, present, unfit⟩
    cases before with
    | nil =>
        cases shape
        rw [found] at present
        cases present
        exact absurd unfit escapable
    | cons first before =>
        cases shape
        rw [step] at passed
        exact ⟨before, other, after, otherNode, rfl, passed, present, unfit⟩
  case mpr =>
    rintro ⟨before, other, after, otherNode, rfl, passed, present, unfit⟩
    refine ⟨key :: before, other, after, otherNode, rfl, ?_, present, unfit⟩
    rw [step]
    exact passed

/-- A key which is missing or does not match, or whose comparison fails, is the last one. -/
theorem not_unescapableFrom_cons {key : S} {rest : List S}
    (stops : ∀ keys, checkListKeys calls node pathPrefix uriKeys index (key :: keys) ≠ .ok none)
    (escapable : ∀ keyNode, node.child? key = some keyNode →
      ¬(mixesQuotes keyNode.valueStr = true ∨ UnfitKeys calls node.schema uriKeys)) :
    ¬UnescapableFrom calls node pathPrefix uriKeys index (key :: rest) := by
  rintro ⟨before, other, after, otherNode, shape, passed, present, unfit⟩
  cases before with
  | nil =>
      cases shape
      exact escapable otherNode present unfit
  | cons first before =>
      cases shape
      exact stops before passed

/-- The loop over the keys raises something which is not reported exactly if it gets to a
key which cannot be escaped. -/
theorem checkListKeys_unmapped_iff {keys : List S}
    (remaining : index + keys.length = (calls.ctx.keys node.schema).length) :
    (∃ exception, checkListKeys calls node pathPrefix uriKeys index keys = .error exception ∧
      ¬exception.IsMapped) ↔ UnescapableFrom calls node pathPrefix uriKeys index keys := by
  induction keys generalizing index with
  | nil => simp [checkListKeys, UnescapableFrom]
  | cons key rest ih =>
      rw [List.length_cons] at remaining
      have inside : index < (calls.ctx.keys node.schema).length := by omega
      cases found : node.child? key with
      | none =>
          have stops : ∀ keys, checkListKeys calls node pathPrefix uriKeys index (key :: keys) =
              .ok (some ⟨[], node.valueStr, none⟩) := by
            intro keys
            simp only [checkListKeys, found]
          refine iff_of_false ?_ (not_unescapableFrom_cons ?_ ?_)
          · rintro ⟨exception, failed, _⟩
            rw [stops] at failed
            cases failed
          · intro keys
            simp [stops]
          · intro keyNode present
            rw [found] at present
            cases present
      | some keyNode =>
          have fits := @keyPaths_isOk_iff _ calls node.schema key pathPrefix uriKeys index
            keyNode.valueStr inside
          cases built : keyPaths calls node.schema key pathPrefix uriKeys index
              keyNode.valueStr with
          | error exception =>
              apply iff_of_true
              · refine ⟨exception, ?_, throws_keyPaths exception built⟩
                simp only [checkListKeys, found, built, bind, Except.bind]
              · refine ⟨[], key, rest, keyNode, rfl, rfl, found, ?_⟩
                by_contra escapable
                obtain ⟨paths, other⟩ := fits.mpr escapable
                rw [built] at other
                cases other
          | ok paths =>
              have escapable := fits.mp ⟨paths, built⟩
              have onlyKey : ∀ other, node.child? key = some other →
                  ¬(mixesQuotes other.valueStr = true ∨
                    UnfitKeys calls node.schema uriKeys) := by
                intro other present
                rw [found] at present
                cases present
                exact escapable
              cases same : compareKeyValue calls paths.1 paths.2 with
              | error exception =>
                  have stops : ∀ keys, checkListKeys calls node pathPrefix uriKeys index
                      (key :: keys) = .error exception := by
                    intro keys
                    simp only [checkListKeys, found, built, bind, Except.bind, same]
                  refine iff_of_false ?_ (not_unescapableFrom_cons ?_ onlyKey)
                  · rintro ⟨other, failed, unmapped⟩
                    rw [stops, Except.error.injEq] at failed
                    exact unmapped
                      (failed ▸ (throws_compareKeyValue calls _ _ exception same).isMapped)
                  · intro keys
                    simp [stops]
              | ok equal =>
                  cases equal with
                  | true =>
                      rw [unescapableFrom_cons_iff found built same escapable, ← ih (by omega)]
                      simp only [checkListKeys, found, built, bind, Except.bind, same, if_true]
                  | false =>
                      have stops : ∀ keys, ∃ mismatch, checkListKeys calls node pathPrefix uriKeys
                          index (key :: keys) = .ok (some mismatch) := by
                        intro keys
                        simp only [checkListKeys, found, built, bind, Except.bind, same,
                          Bool.false_eq_true, if_false]
                        exact ⟨_, rfl⟩
                      refine iff_of_false ?_ (not_unescapableFrom_cons ?_ onlyKey)
                      · rintro ⟨exception, failed, _⟩
                        obtain ⟨mismatch, stopped⟩ := stops rest
                        rw [stopped] at failed
                        cases failed
                      · intro keys
                        obtain ⟨mismatch, stopped⟩ := stops keys
                        simp [stopped]

end Loop

/-! ## All nodes -/

theorem leaflistKeyPredicate_error {value : Str} {exception : Exception}
    (failed : leaflistKeyPredicate value = .error exception) :
    mixesQuotes value = true ∧ ¬exception.IsMapped := by
  cases escaping : escapeListKey value with
  | ok escaped =>
      simp [leaflistKeyPredicate, escaping, bind, Except.bind, pure, Except.pure] at failed
  | error other =>
      simp only [leaflistKeyPredicate, escaping, bind, Except.bind, Except.error.injEq] at failed
      subst failed
      obtain ⟨mixed, what, rfl⟩ := escapeListKey_error escaping
      exact ⟨mixed, id⟩

theorem mixesQuotes_of_leaflistKeyPredicate {value predicate : Str}
    (built : leaflistKeyPredicate value = .ok predicate) : mixesQuotes value = false := by
  obtain ⟨escaped, escaping, _⟩ := except_bind_eq_ok.mp built
  exact escapeListKey_isOk_iff.mp ⟨escaped, escaping⟩

/-- `checkKeysMismatch` raises something which is not reported exactly if it gets to a value
which cannot be escaped. -/
theorem checkKeysMismatch_unmapped_iff {node : DataNode S} {lyParentPath : Str}
    {lastPathSegment : PathSegment} :
    (∃ exception, checkKeysMismatch calls node lyParentPath lastPathSegment = .error exception ∧
      ¬exception.IsMapped) ↔ Unescapable calls node lyParentPath lastPathSegment := by
  unfold checkKeysMismatch Unescapable
  cases calls.ctx.nodeType node.schema with
  | list => exact checkListKeys_unmapped_iff (Nat.zero_add _)
  | leaflist =>
      dsimp only
      cases fromData : leaflistKeyPredicate node.valueStr with
      | error exception =>
          obtain ⟨mixed, unmapped⟩ := leaflistKeyPredicate_error fromData
          exact iff_of_true ⟨exception, rfl, unmapped⟩ (.inl mixed)
      | ok predicate =>
          have escapable := mixesQuotes_of_leaflistKeyPredicate fromData
          simp only [escapable, Bool.false_eq_true, false_or]
          cases first : lastPathSegment.keys.head? with
          | none => exact iff_of_true ⟨.undefined, rfl, id⟩ (by simp)
          | some uriKey =>
              cases fromUri : leaflistKeyPredicate uriKey with
              | error exception =>
                  obtain ⟨mixed, unmapped⟩ := leaflistKeyPredicate_error fromUri
                  refine iff_of_true ⟨exception, ?_, unmapped⟩ ?_
                  · simp only [deref, bind, Except.bind, fromUri]
                  · simpa using mixed
              | ok uriPredicate =>
                  have uriEscapable := mixesQuotes_of_leaflistKeyPredicate fromUri
                  refine iff_of_false ?_ (by simp [uriEscapable])
                  rintro ⟨exception, failed, unmapped⟩
                  simp only [deref, bind, Except.bind, fromUri] at failed
                  split at failed
                  next other raised =>
                    cases failed
                    exact unmapped (throws_compareKeyValue calls _ _ _ raised).isMapped
                  next same compared => cases failed
  | _ => simp

/-- Sysrepo has no part in the check. -/
theorem throws_checkKeysMismatch (node : DataNode S) (lyParentPath : Str)
    (lastPathSegment : PathSegment) :
    Throws (fun exception => exception.IsLocal ∨ ¬exception.IsMapped)
      (checkKeysMismatch calls node lyParentPath lastPathSegment) := by
  have predicate : ∀ value, Throws (fun exception => exception.IsLocal ∨ ¬exception.IsMapped)
      (leaflistKeyPredicate value) :=
    fun value exception failed => .inr (leaflistKeyPredicate_error failed).2
  have comparison : ∀ pathA pathB, Throws
      (fun exception => exception.IsLocal ∨ ¬exception.IsMapped)
      (compareKeyValue calls pathA pathB) :=
    fun pathA pathB => (throws_compareKeyValue calls pathA pathB).mono fun _ raised => .inl raised
  have loop : ∀ pathPrefix uriKeys index keys, Throws
      (fun exception => exception.IsLocal ∨ ¬exception.IsMapped)
      (checkListKeys calls node pathPrefix uriKeys index keys) := by
    intro pathPrefix uriKeys index keys
    induction keys generalizing index with
    | nil => exact .ok _
    | cons key rest ih =>
        unfold checkListKeys
        cases node.child? key with
        | none => exact .ok _
        | some keyNode =>
            apply Throws.bind
            · exact throws_keyPaths.mono fun _ unmapped => .inr unmapped
            rintro ⟨fromData, fromUri⟩ _
            apply Throws.bind (comparison _ _)
            intro same _
            split
            · exact ih (index + 1)
            · exact .ok _
  unfold checkKeysMismatch
  cases calls.ctx.nodeType node.schema with
  | list => exact loop _ _ _ _
  | leaflist =>
      apply Throws.bind (predicate _)
      intro fromData _
      apply Throws.bind
      · cases lastPathSegment.keys.head? with
        | none => exact .error (.inr id)
        | some uriKey => exact .ok uriKey
      intro uriKey _
      apply Throws.bind (predicate _)
      intro fromUri _
      apply Throws.bind (comparison _ _)
      intro same _
      exact .ok _
  | _ => exact .ok _

end Rousette.Restconf.Server
