/-
Why catalog data or a stored document is refused.

`DomainError` is `gleaner_domain::Error`.
-/

set_option autoImplicit false

namespace HarvestSearch

/-- The cause for which catalog data or a stored document is refused. -/
inductive DomainError where
  | invalidBoost (reason : String)
  | duplicateBoost (field value : String)
  | duplicateElement (name : String)
  | invalidElement (reason : String)
  | invalidDocument (reason : String)
deriving DecidableEq, Repr, Inhabited

def DomainError.message : DomainError → String
  | .invalidBoost reason => "Invalid boost: " ++ reason
  | .duplicateBoost field value => "Duplicate boost for " ++ field ++ "=" ++ value ++ "."
  | .duplicateElement name => "Duplicate element " ++ name ++ "."
  | .invalidElement reason => "Invalid element: " ++ reason
  | .invalidDocument reason => "Invalid document: " ++ reason

end HarvestSearch
