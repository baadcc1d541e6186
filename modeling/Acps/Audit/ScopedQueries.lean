import Acps.Audit.Query
import Acps.Audit.Verify
import Acps.Monitor.Scope

/-!
Audit queries of a principal with a scope: the request is narrowed first, and the query then honours
what it has a branch for.
-/

namespace Acps.Audit

open Monitor

section Endpoints

variable (db : Database) (auth : AuthSettings) (principal : Option HumanPrincipal)
  (records : List AuditRecord)

end Endpoints

theorem mapError_eq_ok {ε ε' α : Type} {f : ε → ε'} {x : Except ε α} {a : α} :
    x.mapError f = .ok a ↔ x = .ok a := by
  cases x <;> simp [Except.mapError]

section Confinement

variable {ε : Type} (aics : List String)

/-- The request is refused, or lets no record of another agent through once `added` is put to its
conditions. -/
def RecordQueryRequest.Keeps (db : Database) (request : RecordQueryRequest)
    (added : List AMPFilterCondition) : Prop :=
  ∀ w, requireTimeRange db request.timeRange = .ok w →
    ∀ cursor, readCursor db request.page = .ok cursor →
    ∀ clauses, filterClauses db ((request.filter.getD .none).withConditions added) = .ok clauses →
    clauses.all (Fragment.accepts db.store) = true →
    ∀ r, Selects db w cursor clauses request.keyword r = true → r.aic ∈ aics

end Confinement

variable {db : Database} {auth : AuthSettings} {principal : Option HumanPrincipal}
  {scope : PrincipalScope} {records : List AuditRecord}

section Records

variable {request : RecordQueryRequest} {added : List AMPFilterCondition} {aics : List String}

theorem limit_pos (page : Option AMPPaginationRequest) {default : ℕ} (h : 1 ≤ default) :
    1 ≤ page.elim default AMPPaginationRequest.limit := by
  cases page with
  | none => exact h
  | some page => exact page.limit_ge

end Records

section Aggregates

variable {request : AggregateRequest} {aics : List String}

end Aggregates

namespace Sample

def database : Database where
  platform := { platform with fromIsoFormat := fun text => some text.length }
  store := store
  maxEventLag := 0
  b64decode := some
  textEq_iff := store_textEq

end Sample

end Acps.Audit
