import SourceMask.Text.Offset

/-!
# Roles of names

A declared name is masked according to the role that it plays in its declaration.  The names of
declarations themselves share one placeholder for each role; the names of members and of bindings
are numbered.
-/

namespace SourceMask

/-- What a name stands for in its declaration. -/
inductive Role where
  | className
  | functionName
  | methodName
  | propertyName
  | variableName
  deriving DecidableEq, Repr

namespace Role

/-- The order in which roles are masked: declarations, then members, then bindings. -/
def maskingOrder : List Role := [className, functionName, methodName, propertyName, variableName]

/-- Whether the names of a role are numbered. -/
def isNumbered : Role → Bool
  | propertyName | variableName => true
  | className | functionName | methodName => false

/-- The word that a placeholder of the role is made of. -/
def stem : Role → Text
  | className => ['_', 'c', 'l', 'a', 's', 's']
  | functionName => ['_', 'f', 'u', 'n', 'c', 't', 'i', 'o', 'n']
  | methodName => ['_', 'm', 'e', 't', 'h', 'o', 'd']
  | propertyName => ['_', 'p', 'r', 'o', 'p', 'e', 'r', 't', 'y']
  | variableName => ['_', 'v', 'a', 'r', 'i', 'a', 'b', 'l', 'e']

/-- The placeholder of the name that is the `index`-th different one of its role. -/
def placeholder (role : Role) (index : Nat) : Text :=
  role.stem ++ (if role.isNumbered then Nat.toDigits 10 index else []) ++ ['_']

end Role

end SourceMask
