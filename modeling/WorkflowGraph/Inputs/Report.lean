/- Problems found in input values, field by field. -/

import WorkflowGraph.Record

set_option autoImplicit false
set_option relaxedAutoImplicit false

namespace WorkflowGraph

/-- A problem with the value of one field. -/
structure Issue where
  field : String
  message : String
deriving DecidableEq

namespace Issue

def fieldSlot : Record.Slot String := .named "field" Record.text
def messageSlot : Record.Slot String := .named "message" Record.text

def read : Record.Reader Issue :=
  Record.closed [fieldSlot.member, messageSlot.member] fun doc => do
    return { field := ← fieldSlot.require doc, message := ← messageSlot.require doc }

def toValue (i : Issue) : Value := .obj [("field", .str i.field), ("message", .str i.message)]

end Issue

/-- The outcome of checking a set of inputs. -/
structure Report where
  isValid : Bool
  errors : List Issue
  warnings : List Issue
deriving DecidableEq

namespace Report

def clean : Report := ⟨true, [], []⟩

def ofFindings (errors warnings : List Issue) : Report := ⟨errors.isEmpty, errors, warnings⟩

def addError (r : Report) (i : Issue) : Report := ⟨false, r.errors ++ [i], r.warnings⟩

def issuesFor (r : Report) (field : String) : List Issue :=
  (r.errors ++ r.warnings).filter fun i => i.field = field

def validSlot : Record.Slot Bool := .named "is_valid" Record.flag
def errorsSlot : Record.Slot (List Issue) := .named "errors" (Record.list Issue.read)
def warningsSlot : Record.Slot (List Issue) := .named "warnings" (Record.list Issue.read)

def read : Record.Reader Report :=
  Record.closed [validSlot.member, errorsSlot.member, warningsSlot.member] fun doc => do
    return {
      isValid := ← validSlot.require doc
      errors := ← errorsSlot.orElse [] doc
      warnings := ← warningsSlot.orElse [] doc }

def toValue (r : Report) : Value :=
  .obj [("is_valid", .bool r.isValid), ("errors", .arr (r.errors.map Issue.toValue)),
    ("warnings", .arr (r.warnings.map Issue.toValue))]

end Report

end WorkflowGraph
