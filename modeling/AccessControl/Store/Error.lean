namespace AccessControl

inductive StoreError where
  | database (detail : String)
  | serialization (detail : String)
  | notFound (detail : String)
  | invalidData (detail : String)
  | migration (detail : String)
  | lockPoisoned (detail : String)
  | task (detail : String)
deriving DecidableEq

namespace StoreError

def message : StoreError → String
  | database detail => "database error: " ++ detail
  | serialization detail => "serialization error: " ++ detail
  | notFound detail => "not found: " ++ detail
  | invalidData detail => "invalid data: " ++ detail
  | migration detail => "migration error: " ++ detail
  | lockPoisoned detail => "store lock poisoned: " ++ detail
  | task detail => "blocking task failed: " ++ detail

def missingUser (id : String) : StoreError := notFound ("user " ++ id)

def missingRole (id : String) : StoreError := notFound ("role " ++ id)

def missingTeam (id : String) : StoreError := notFound ("team " ++ id)

end StoreError

end AccessControl
