import Mathlib.Tactic

set_option autoImplicit false

/-! # Errors and responses

`AppError` is every way a request can fail; `AppError.into_response` is the status and the JSON
body the client sees. A `DbErr` is kept to what the service tells apart: the two constraint
violations it tests for, contention, and the rest.
-/

namespace IpVault

/-- A JSON document. A date stands for the text of a timestamp, whose rendering is not modelled. -/
inductive Json where
  | null
  | bool (b : Bool)
  | num (n : Int)
  | str (s : String)
  | date (t : Int)
  | arr (items : List Json)
  | obj (fields : List (String × Json))

/-- A field that may be absent, as serde writes an `Option`. -/
def Json.ofOption {α : Type} (f : α → Json) : Option α → Json
  | none => .null
  | some a => f a

/-- What the client receives: the status and the body, if there is one. -/
structure Response where
  status : Nat
  body : Option Json

/-- `sea_orm::DbErr`, as far as the service distinguishes its cases. -/
inductive DbErr where
  | unique_constraint_violation
  | foreign_key_constraint_violation
  | record_not_updated
  /-- A lock or contention error, which `is_transient_lock_error` recognises. -/
  | busy
  | other
  deriving DecidableEq

/-- Every way a request can fail. -/
inductive AppError where
  | DbError (err : DbErr)
  | InvalidInput (msg : String)
  | Unauthorized (msg : String)
  | Forbidden (msg : String)
  | NotFound
  | Conflict (msg : String)
  | ConflictWithDetails (message : String) (details : List (String × Json))
  | BodyRejected (status : Nat) (msg : String)
  | Internal

namespace AppError

/-- `IntoResponse for AppError`: the status. -/
def status : AppError → Nat
  | DbError .busy => 503
  | DbError _ => 500
  | InvalidInput _ => 400
  | Unauthorized _ => 401
  | Forbidden _ => 403
  | NotFound => 404
  | Conflict _ => 409
  | ConflictWithDetails _ _ => 409
  | BodyRejected status _ => status
  | Internal => 500

/-- `IntoResponse for AppError`: the text under `error`. -/
def message : AppError → String
  | DbError .busy => "Database busy or query timeout, please retry"
  | DbError _ => "Internal database error"
  | InvalidInput msg => msg
  | Unauthorized msg => msg
  | Forbidden msg => msg
  | NotFound => "Resource not found"
  | Conflict msg => msg
  | ConflictWithDetails message _ => message
  | BodyRejected _ msg => msg
  | Internal => "An internal server error occurred"

/-- The fields a `ConflictWithDetails` adds to its body. -/
def details : AppError → List (String × Json)
  | ConflictWithDetails _ details => details
  | _ => []

/-- `IntoResponse for AppError`. -/
def into_response (e : AppError) : Response where
  status := e.status
  body := some (.obj (("error", .str e.message) :: e.details))

end AppError

end IpVault
