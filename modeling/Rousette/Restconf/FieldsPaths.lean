import Rousette.Restconf.QueryPhrases
import Rousette.Restconf.Uri

/-!
# Paths of a `fields` expression

An expression of the query parameter `fields` denotes a list of paths.  `fieldsToXPath`
collects them in one traversal with a path which it extends on the way, and this module
shows that the traversal finds the paths of the denotation in their order.
-/

namespace Rousette.Restconf

open Library

/-- The paths which an expression denotes, each of them as the names of its steps. -/
def QueryParams.FieldsExpr.denotation : QueryParams.FieldsExpr → List (List Str)
  | .slash lhs none => [[lhs.qualifiedName]]
  | .slash lhs (some rhs) => rhs.denotation.map (lhs.qualifiedName :: ·)
  | .paren lhs none => lhs.denotation
  | .paren lhs (some rhs) => lhs.denotation.flatMap fun path => rhs.denotation.map (path ++ ·)
  | .semi lhs none => lhs.denotation
  | .semi lhs (some rhs) => lhs.denotation ++ rhs.denotation

namespace Impl.Grammar

/-- What the traversal does with an expression of a level.  A path is concatenated to the
current one and comes out of the traversal; the other levels leave nothing behind but their
output. -/
def Collects : FieldsLevel → QueryParams.FieldsExpr → Prop
  | .slash, expr => ∃ names, expr.denotation = [names] ∧ ∀ currentPath output atEnd,
      collectFields expr currentPath output atEnd =
        (currentPath ++ names,
          if atEnd then output ++ [join (str "/") (currentPath ++ names)] else output)
  | _, expr => ∀ currentPath output atEnd,
      (collectFields expr currentPath output atEnd).2 =
        output ++ expr.denotation.map fun names => join (str "/") (currentPath ++ names)

/-- Whether the traversal is at the end of an expression is known from a path which has no
parentheses behind it. -/
theorem FieldsPhrase.collects {level : FieldsLevel} (phrase : FieldsPhrase level) :
    Collects level phrase.value := by
  induction phrase with
  | name ident => exact ⟨[ident.value.qualifiedName], rfl, fun _ _ _ => rfl⟩
  | slash ident rhs ih =>
      obtain ⟨names, denotes, collects⟩ := ih
      refine ⟨ident.value.qualifiedName :: names, ?_, ?_⟩
      · simp only [FieldsPhrase.value, QueryParams.FieldsExpr.denotation, denotes, List.map_cons,
          List.map_nil]
      · intro currentPath output atEnd
        simp only [FieldsPhrase.value, collectFields, collects, List.append_assoc,
          List.singleton_append]
  | path lhs ih =>
      obtain ⟨names, denotes, collects⟩ := ih
      intro currentPath output atEnd
      simp only [FieldsPhrase.value, collectFields, collects, if_true,
        QueryParams.FieldsExpr.denotation, denotes, List.map_cons, List.map_nil]
  | paren lhs rhs ihLhs ihRhs =>
      obtain ⟨names, denotes, collects⟩ := ihLhs
      intro currentPath output atEnd
      have right := ihRhs (currentPath ++ names) output atEnd
      simp only [FieldsPhrase.value, collectFields, collects, Bool.false_eq_true, if_false, right,
        QueryParams.FieldsExpr.denotation, denotes, List.flatMap_singleton, List.map_map,
        Function.comp_def, List.append_assoc]
  | single lhs ih => exact fun currentPath output _ => ih currentPath output true
  | semi lhs rhs ihLhs ihRhs =>
      intro currentPath output atEnd
      have left := ihLhs currentPath output false
      have right := ihRhs currentPath (collectFields lhs.value currentPath output false).2 false
      rw [left] at right
      simp only [FieldsPhrase.value, collectFields, left, right,
        QueryParams.FieldsExpr.denotation, List.map_append, List.append_assoc]

end Impl.Grammar

/-- The paths which are collected below a prefix are those which the expression denotes, in
their order, and the XPath is the union of them. -/
theorem fieldsToXPath_denotation {S : Type} (ctx : Libyang.Context S) (pathPrefix : Str)
    (phrase : Impl.Grammar.FieldsPhrase .semi) :
    let paths := phrase.value.denotation.map fun names =>
      pathPrefix ++ names.flatMap fun name => str "/" ++ name
    (collectFields phrase.value [pathPrefix] [] false).2 = paths ∧
      ∀ xpath, fieldsToXPath ctx pathPrefix phrase.value = .ok xpath →
        xpath = join (str " | ") paths := by
  intro paths
  have collected : (collectFields phrase.value [pathPrefix] [] false).2 = paths := by
    have found := phrase.collects [pathPrefix] [] false
    have joined (names : List Str) : join (str "/") (pathPrefix :: names) =
        pathPrefix ++ names.flatMap fun name => str "/" ++ name := by
      have steps := Parser.Recognizes.join_map_cons (str "/") id pathPrefix names
      rwa [List.map_id] at steps
    simpa only [List.nil_append, List.singleton_append, joined] using found
  refine ⟨collected, ?_⟩
  intro xpath built
  simp only [fieldsToXPath, collected, except_bind_eq_ok] at built
  obtain ⟨_, _, result⟩ := built
  cases result
  rfl

end Rousette.Restconf
