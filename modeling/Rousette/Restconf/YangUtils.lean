import Rousette.Libyang.Data

/-!
# Keys of lists

The helpers of `restconf/utils/yang.cpp` which turn key values into predicates of
libyang paths and which tell keys from other nodes.
-/

namespace Rousette.Restconf

open Library Libyang

def singleQuote : UInt8 := 39

def doubleQuote : UInt8 := 34

/-- Does the text contain both kinds of quotes? -/
def mixesQuotes (text : Str) : Bool :=
  text.contains singleQuote && text.contains doubleQuote

/-- `escapeListKey`: the key within the kind of quotes which it does not contain. -/
def escapeListKey (text : Str) : Except Exception Str :=
  if mixesQuotes text then
    .error (.invalidArgument
      (str "Encountered mixed single and double quotes in XPath. Can't properly escape."))
  else if text.contains singleQuote then
    .ok ([doubleQuote] ++ text ++ [doubleQuote])
  else
    .ok ([singleQuote] ++ text ++ [singleQuote])

section Predicates

variable {S : Type} (ctx : Context S)

/-- `listKeyPredicate`. The vectors are taken to be of the same length: running out of
values means that the end of the second one is dereferenced. -/
def listKeyPredicate : List S → List Str → Except Exception Str
  | [], _ => .ok []
  | _ :: _, [] => .error .undefined
  | key :: keys, value :: values => do
      let escaped ← escapeListKey value
      let rest ← listKeyPredicate keys values
      return str "[" ++ ctx.name key ++ str "=" ++ escaped ++ str "]" ++ rest

/-- `leaflistKeyPredicate` -/
def leaflistKeyPredicate (value : Str) : Except Exception Str := do
  let escaped ← escapeListKey value
  return str "[.=" ++ escaped ++ str "]"

/-- `isUserOrderedList` -/
def isUserOrderedList (node : DataNode S) : Bool :=
  match ctx.nodeType node.schema with
  | .list => ctx.isUserOrdered node.schema
  | .leaflist => ctx.isUserOrdered node.schema
  | _ => false

/-- `isKeyNode` -/
def isKeyNode [DecidableEq S] (maybeList node : DataNode S) : Bool :=
  match ctx.nodeType maybeList.schema with
  | .list => (ctx.keys maybeList.schema).any fun key => node.schema = key
  | _ => false

end Predicates

variable {S : Type} {ctx : Context S}

theorem escapeListKey_isOk_iff {text : Str} :
    (∃ escaped, escapeListKey text = .ok escaped) ↔ mixesQuotes text = false := by
  unfold escapeListKey
  cases mixesQuotes text with
  | true => simp
  | false =>
      simp only [Bool.false_eq_true, if_false, iff_true]
      split <;> exact ⟨_, rfl⟩

theorem escapeListKey_error {text : Str} {exception : Exception}
    (failed : escapeListKey text = .error exception) :
    mixesQuotes text = true ∧ ∃ what, exception = .invalidArgument what := by
  unfold escapeListKey at failed
  split at failed
  next mixed =>
    cases failed
    exact ⟨mixed, _, rfl⟩
  · split at failed <;> cases failed

/-- A predicate can be built exactly if there are enough values and none of those which
are used mixes quotes. -/
theorem listKeyPredicate_isOk_iff {keys : List S} {values : List Str} :
    (∃ predicate, listKeyPredicate ctx keys values = .ok predicate) ↔
      keys.length ≤ values.length ∧ ∀ value ∈ values.take keys.length,
        mixesQuotes value = false := by
  induction keys generalizing values with
  | nil => simp [listKeyPredicate]
  | cons key keys ih =>
      cases values with
      | nil => simp [listKeyPredicate]
      | cons value values =>
          have escaped := @escapeListKey_isOk_iff value
          simp only [listKeyPredicate, List.length_cons, Nat.add_le_add_iff_right,
            List.take_succ_cons, List.mem_cons, forall_eq_or_imp]
          rw [← escaped, and_left_comm, ← ih]
          cases escapeListKey value with
          | error exception => simp [bind, Except.bind]
          | ok text =>
              cases listKeyPredicate ctx keys values <;>
                simp [bind, Except.bind, pure, Except.pure]

/-- What leaves `listKeyPredicate` is never one of the exceptions which are reported. -/
theorem listKeyPredicate_error {keys : List S} {values : List Str} {exception : Exception}
    (failed : listKeyPredicate ctx keys values = .error exception) :
    exception = .undefined ∨ ∃ what, exception = .invalidArgument what := by
  induction keys generalizing values with
  | nil => cases failed
  | cons key keys ih =>
      cases values with
      | nil =>
          cases failed
          exact .inl rfl
      | cons value values =>
          simp only [listKeyPredicate, bind, Except.bind] at failed
          cases escaping : escapeListKey value with
          | error other =>
              simp only [escaping, Except.error.injEq] at failed
              subst failed
              exact .inr (escapeListKey_error escaping).2
          | ok text =>
              simp only [escaping] at failed
              cases rest : listKeyPredicate ctx keys values with
              | error other =>
                  simp only [rest, Except.error.injEq] at failed
                  subst failed
                  exact ih rest
              | ok predicate => simp [rest, pure, Except.pure] at failed

end Rousette.Restconf
