import ClassThaw.Marker

namespace ClassThaw

/-- What holders are told by. -/
structure HolderNames where
  -- The dotted names of classes all of whose fields are holders.
  forcedClasses : List String := ["net.minecraft.init.Blocks", "net.minecraft.init.Items"]
  -- The fragment that identifies the object-holder annotation.
  objectHolder : String := "cpw/mods/fml/common/registry/GameRegistry/ObjectHolder"
  -- The fragment that identifies the item-stack-holder annotation.
  itemStackHolder : String := "cpw/mods/fml/common/registry/GameRegistry/ItemStackHolder"
  deriving DecidableEq, Repr

/-- Which fields are holders. -/
structure HolderRules extends HolderNames where
  -- Tells from a marker's fragment and the descriptor of an annotation type whether they match.
  strategy : (fragment descriptor : String) → Bool := Matching.substring.accepts

/-- Which fields are holders, and whether enums are opened. -/
structure Settings extends HolderRules where
  openEnums : Bool := true
  -- Somebody listens to the events for debugging. If nobody does, they are not even made up.
  debug : Bool := true

namespace HolderNames

/-- All fields of the class with this dotted name are holders. -/
def isForced (names : HolderNames) (className : String) : Bool :=
  names.forcedClasses.contains className

def fragment (names : HolderNames) : Marker → String
  | .objectHolder => names.objectHolder
  | .itemStackHolder => names.itemStackHolder

end HolderNames

namespace HolderRules

/-- The annotation type with this descriptor is the marker. -/
def isMarker (rules : HolderRules) (marker : Marker) (descriptor : String) : Bool :=
  rules.strategy (rules.fragment marker) descriptor

/-- The marker that an annotation type is, the object holder before the other. -/
def marker? (rules : HolderRules) (descriptor : String) : Option Marker :=
  [Marker.objectHolder, .itemStackHolder].find? (rules.isMarker · descriptor)

def anyIs (rules : HolderRules) (marker : Marker) (descriptors : List String) : Bool :=
  descriptors.any (rules.isMarker marker)

def anyIsMarker (rules : HolderRules) (descriptors : List String) : Bool :=
  descriptors.any fun descriptor => (rules.marker? descriptor).isSome

end HolderRules

end ClassThaw
