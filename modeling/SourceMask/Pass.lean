import SourceMask.Role

/-!
# Passes

Names are masked in two passes over a text, each on a tree of its own.  The first looks at class
declarations and masks the names of classes and of their public fields.  The second looks at
functions and methods and masks their names, their parameters and their local variables.

A node is a declaration that a pass masks, or it is the place where such a declaration
introduces a name.  The second is told from the kind of the node, the kind of its parent and the
field that it fills: the value of a declared variable, or the collection that a loop runs over, is
no such place.
-/

namespace SourceMask

/-- One round of parsing and masking. -/
inductive Pass where
  | classScope
  | functionScope
  deriving DecidableEq, Repr

namespace Pass

/-- The passes in the order in which they run. -/
def all : List Pass := [classScope, functionScope]

/-- What a pass is called in messages. -/
def name : Pass → String
  | classScope => "class scope"
  | functionScope => "function scope"

/-- The kinds of nodes that a pass masks. -/
def targetKinds : Pass → List String
  | classScope => ["class_declaration"]
  | functionScope =>
    ["function_declaration", "function_signature", "method_definition", "method_signature"]

/-- Whether a pass masks nodes of a kind. -/
def isTarget (pass : Pass) (kind : String) : Bool := pass.targetKinds.contains kind

/-- The role of the name that a node introduces, if it introduces one for the pass. -/
def classify (pass : Pass) (kind parentKind : String) (field : Option String) : Option Role :=
  match pass with
  | classScope =>
    if kind = "type_identifier" && parentKind = "class_declaration" && field = some "name" then
      some .className
    else if kind = "property_identifier" && parentKind = "public_field_definition" &&
        field = some "name" then
      some .propertyName
    else
      none
  | functionScope =>
    if kind = "property_identifier" then
      if ["method_definition", "method_signature"].contains parentKind && field = some "name" then
        some .methodName
      else
        none
    else if kind = "identifier" then
      if ["function_declaration", "function_signature"].contains parentKind &&
          field = some "name" then
        some .functionName
      else if ["required_parameter", "optional_parameter"].contains parentKind &&
          field = some "pattern" then
        some .variableName
      else if parentKind = "variable_declarator" && field = some "name" then
        some .variableName
      else if parentKind = "for_in_statement" && field = some "left" then
        some .variableName
      else
        none
    else
      none

end Pass

end SourceMask
