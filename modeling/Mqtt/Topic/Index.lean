import Mqtt.Topic
/-!
# Indexes of filters

The filters of one session, as a tree of levels. A node stands for the levels on the way to it; it
remembers whether a filter ends there and whether one ends there with `#`. The wildcard `+` has a
child of its own beside the named children, and `#` has none: it is a mark on its parent.

Nodes exist only on the way to a filter, and children stand in the order of their names. Removing a
filter removes the nodes that no other filter needs, so the tree shows nothing of filters that were
there before, nor of the order in which those came that are there now.
-/

namespace Mqtt

/-- A node of an index. -/
structure FilterNode where
  /-- The children, by the level that leads to them, in ascending order. -/
  named : List (String × FilterNode)
  /-- The child that the wildcard for one level leads to. -/
  any : Option FilterNode
  /-- Whether a filter ends here with the wildcard for all further levels. -/
  all : Bool
  /-- Whether a filter ends here. -/
  here : Bool
deriving Inhabited

namespace FilterNode

/-- The node without filters. -/
def empty : FilterNode := ⟨[], none, false, false⟩

/-- Whether no filter ends at this node or below. -/
def isEmpty (n : FilterNode) : Bool :=
  !n.here && !n.all && n.any.isNone && n.named.isEmpty

/-- The child that a level of a filter leads to. -/
def child? (n : FilterNode) (level : String) : Option FilterNode :=
  if level = Topic.oneLevel then n.any else n.named.lookup level

/-- Replaces or adds the child of a name, at its place in the order of the names. -/
def setNamed (level : String) (child : FilterNode) :
    List (String × FilterNode) → List (String × FilterNode)
  | [] => [(level, child)]
  | (l, c) :: rest =>
    if l = level then (level, child) :: rest
    else if level < l then (level, child) :: (l, c) :: rest
    else (l, c) :: setNamed level child rest

/-- Replaces or adds the child that a level of a filter leads to. -/
def setChild (n : FilterNode) (level : String) (child : FilterNode) : FilterNode :=
  if level = Topic.oneLevel then { n with any := some child }
  else { n with named := setNamed level child n.named }

/-- Removes the child that a level of a filter leads to. -/
def dropChild (n : FilterNode) (level : String) : FilterNode :=
  if level = Topic.oneLevel then { n with any := none }
  else { n with named := n.named.filter fun c => c.1 != level }

/-- Whether a filter ends here, with the wildcard for all further levels or without. -/
def mark (n : FilterNode) (all : Bool) : Bool := if all then n.all else n.here

/-- Sets or clears the mark of a filter that ends here. -/
def setMark (n : FilterNode) (all value : Bool) : FilterNode :=
  if all then { n with all := value } else { n with here := value }

/-- Adds a filter. -/
def insert (all : Bool) : List String → FilterNode → FilterNode
  | [], n => n.setMark all true
  | level :: rest, n => n.setChild level (insert all rest ((n.child? level).getD empty))

/-- Whether a filter is there. -/
def contains (all : Bool) : List String → FilterNode → Bool
  | [], n => n.mark all
  | level :: rest, n =>
    match n.child? level with
    | some c => contains all rest c
    | none => false

/-- Removes a filter, and every node that it alone needed. -/
def erase (all : Bool) : List String → FilterNode → FilterNode
  | [], n => n.setMark all false
  | level :: rest, n =>
    match n.child? level with
    | none => n
    | some c =>
      let c := erase all rest c
      -- A node goes once nothing is left that needs it.
      if c.isEmpty then n.dropChild level else n.setChild level c

/-- Whether a filter below this node names the rest of a topic. -/
def matchesRest : List String → FilterNode → Bool
  | [], n => n.here || n.all
  | level :: rest, n =>
    if n.all then true
    else
      -- A level may be spelled out, or stood for by the wildcard; either way may lead on.
      match n.named.lookup level, n.any with
      | some c, none => matchesRest rest c
      | none, some a => matchesRest rest a
      | some c, some a => matchesRest rest c || matchesRest rest a
      | none, none => false

/-- Whether a filter names the levels of a topic. Behind a first level that begins with a dollar
sign, only a filter that spells this level out does. -/
def matchesTopic (root : FilterNode) : List String → Bool
  | [] => false
  | level :: rest =>
    if Topic.isReserved level then ((root.named.lookup level).map (matchesRest rest)).getD false
    else matchesRest (level :: rest) root

end FilterNode

/-- The filters of a session. -/
structure FilterIndex where
  root : FilterNode
  /-- How many filters there are. -/
  size : Nat
deriving Inhabited

namespace FilterIndex

/-- The index without filters. -/
def empty : FilterIndex := ⟨.empty, 0⟩

/-- Whether there are no filters. -/
def isEmpty (x : FilterIndex) : Bool := x.size == 0

/-- The levels of a filter, less a wildcard for all further levels at the end, and whether it was
there. -/
def path (filter : String) : List String × Bool :=
  let levels := Topic.levels filter
  if levels.getLast? = some Topic.allLevels then (levels.dropLast, true) else (levels, false)

/-- Whether a filter is in the index. -/
def contains (x : FilterIndex) (filter : String) : Bool :=
  let (levels, all) := path filter
  x.root.contains all levels

/-- Adds a filter, and tells whether it is new. A malformed filter is refused. -/
def subscribe (x : FilterIndex) (filter : String) : Except Fault (Bool × FilterIndex) := do
  Topic.validateFilter filter
  if x.contains filter then return (false, x)
  let (levels, all) := path filter
  return (true, ⟨x.root.insert all levels, x.size + 1⟩)

/-- Removes a filter, and tells whether it was there. -/
def unsubscribe (x : FilterIndex) (filter : String) : Bool × FilterIndex :=
  if x.contains filter then
    let (levels, all) := path filter
    (true, ⟨x.root.erase all levels, x.size - 1⟩)
  else (false, x)

/-- Whether some filter names a topic. -/
def matchesTopic (x : FilterIndex) (topic : String) : Bool :=
  !topic.isEmpty && x.root.matchesTopic (Topic.levels topic)

/-- The number of filters and the named first levels. -/
def description (x : FilterIndex) : String :=
  Text.described "SubscriptionIndex"
    [("filters", toString x.size),
      ("top_level", Text.listed (x.root.named.map fun c => Text.quoted c.1))]

end FilterIndex
end Mqtt
