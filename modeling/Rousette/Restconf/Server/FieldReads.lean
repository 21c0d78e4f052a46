import Rousette.Restconf.FieldsPaths
import Rousette.Restconf.QueryAccess
import Rousette.Restconf.Server.Answers
import Rousette.Restconf.Server.Transactions

/-!
# Reading some fields

A `GET` with the query parameter `fields` asks sysrepo for the union of the paths which
`fieldsToXPath` has collected.  Here an expression is read as what it selects below a node, one
operator after the other, and this is what the client gets data for.
-/

namespace Rousette.Restconf.Server

open Library Libyang Program
open QueryParams (FieldsExpr)

/-! ## What an expression selects -/

section Selection

variable {S : Type} (ctx : Context S)

end Selection

section Meaning

variable {S : Type} {ctx : Context S}

end Meaning

/-! ## What the client gets -/

section Reading

variable {S : Type} {env : Env S} {req : Request} {request : RestconfRequest}

/-- The status of the response. -/
def status (world : World S) : Option Nat :=
  world.head.map Prod.fst

end Reading

/-! ### Two leafs of a list -/

theorem example_name (node : Example.Node) : Impl.Grammar.IsIdentifier node.name := by
  cases node <;> decide

/-- The name of a node, without a module. -/
def plainName (node : Example.Node) : Impl.Grammar.ApiName :=
  ⟨none, (example_name node).phrase⟩

end Rousette.Restconf.Server
