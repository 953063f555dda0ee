/- The two halves of a model pair, and the routing of a path to one of them by its name. -/

import WorkflowGraph.Text.Lower
import WorkflowGraph.Text.Search

set_option autoImplicit false
set_option relaxedAutoImplicit false

namespace WorkflowGraph

/-- The half of a high/low noise pair that an entry belongs to. -/
inductive NoiseVariant where
  | high
  | low
deriving DecidableEq

namespace NoiseVariant

def all : List NoiseVariant := [.high, .low]

def key : NoiseVariant → String
  | .high => "high_noise"
  | .low => "low_noise"

def name : NoiseVariant → String
  | .high => "high"
  | .low => "low"

def label : NoiseVariant → String
  | .high => "high noise"
  | .low => "low noise"

def highMarkers : List String := ["high", "-h-", "_high_", "high_noise"]

def lowMarkers : List String := ["low", "-l-", "_low_", "low_noise"]

/-- The half that a path names. High markers come first, and a path without a marker is high. -/
def ofPath (path : String) : NoiseVariant :=
  let lowered := (Text.lower path).toList
  if highMarkers.any fun m => Text.occurs m.toList lowered then .high
  else if lowMarkers.any fun m => Text.occurs m.toList lowered then .low
  else .high

end NoiseVariant

end WorkflowGraph
