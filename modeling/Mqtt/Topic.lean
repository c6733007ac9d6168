import Mqtt.Fault
/-!
# Topics and topic filters

A topic names what a message is about; a filter names the topics that somebody wants. Both are
rows of levels between slashes. In a filter, the level `+` stands for any one level, and the level
`#` at the end for any number of levels, none included. A filter whose first level is a wildcard
passes over topics that begin with a dollar sign.

`Topic.matchedBy` decides whether a topic is named by a filter. Beside it stand the two halves of
what it means: `WellPlaced`, which says where wildcards may stand, and `LevelsMatch`, which says
level by level what a filter names.
-/

namespace Mqtt
namespace Topic

/-- The levels of a topic or a filter. There is always at least one. -/
def levels (s : String) : List String :=
  (s.toList.splitOn '/').map String.ofList

/-- The wildcard that stands for one level. -/
def oneLevel : String := "+"

/-- The wildcard that stands for all levels from here on. -/
def allLevels : String := "#"

/-- Whether a character is a wildcard. -/
def isWildcard (c : Char) : Bool := c == '+' || c == '#'

/-- Whether a text holds a wildcard. -/
def hasWildcard (s : String) : Bool := s.toList.any isWildcard

/-- Whether a topic begins with a dollar sign. -/
def isReserved (topic : String) : Bool := topic.toList.head? == some '$'

/-- Whether a filter begins with a wildcard. -/
def beginsWild (filter : String) : Bool := filter.toList.head?.any isWildcard

/-! ### What a filter names -/

/-- Wildcards stand alone in their level, and `#` only at the end. -/
inductive WellPlaced : List String → Prop
  | nil : WellPlaced []
  | all : WellPlaced [allLevels]
  | one {rest : List String} : WellPlaced rest → WellPlaced (oneLevel :: rest)
  | plain {level : String} {rest : List String} :
    hasWildcard level = false → WellPlaced rest → WellPlaced (level :: rest)

/-- The levels of a filter, on the right, name those of a topic, on the left. -/
inductive LevelsMatch : List String → List String → Prop
  | nil : LevelsMatch [] []
  | all (topic : List String) : LevelsMatch topic [allLevels]
  | one {level : String} {topic filter : List String} :
    LevelsMatch topic filter → LevelsMatch (level :: topic) (oneLevel :: filter)
  | same {level : String} {topic filter : List String} :
    LevelsMatch topic filter → LevelsMatch (level :: topic) (level :: filter)

/-- Whether the levels of a topic are named by those of a filter. A level with a misplaced
wildcard names nothing. -/
def matchLevels : List String → List String → Bool
  | [], [] => true
  | topic, f :: filter =>
    if f = allLevels then filter.isEmpty
    else
      match topic with
      | [] => false
      | t :: topic =>
        if f = oneLevel || (!hasWildcard f && f == t) then matchLevels topic filter else false
  | _ :: _, [] => false

/-- Whether a topic is named by a filter. Nothing is named by a malformed filter. -/
def matchedBy (topic filter : String) : Bool :=
  if topic.isEmpty || filter.isEmpty then false
  else if isReserved topic && beginsWild filter then false
  else matchLevels (levels topic) (levels filter)

/-! ### Rules for topics and filters -/

/-- The rules that topics and filters share. -/
def checkText (role : TopicRole) (s : String) : Except Fault Unit :=
  if s.isEmpty then violate (.topicEmpty role)
  else if 65535 < s.utf8ByteSize then violate (.topicTooLong role)
  else if s.toList.any (· == '\x00') then violate (.topicHoldsNul role)
  else .ok ()

/-- Whether the wildcards of a filter are well placed. The first misplaced one is reported. -/
def checkLevels (filter : String) : List String → Except Fault Unit
  | [] => .ok ()
  | level :: rest =>
    if level = oneLevel then checkLevels filter rest
    else if level = allLevels then
      if rest.isEmpty then .ok () else violate (.multiLevelNotLast filter)
    else if hasWildcard level then violate (.wildcardInLevel filter)
    else checkLevels filter rest

/-- Whether a text is a filter, as SUBSCRIBE carries it. -/
def validateFilter (filter : String) : Except Fault Unit := do
  checkText .filter filter
  checkLevels filter (levels filter)

/-- Whether a text is a topic, as PUBLISH carries it. -/
def validate (topic : String) : Except Fault Unit := do
  checkText .topic topic
  if hasWildcard topic then violate (.wildcardInTopic topic)

end Topic
end Mqtt
