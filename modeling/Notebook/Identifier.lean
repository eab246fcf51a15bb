import Notebook.Json.Record

/-!
# Identifiers

Sessions and cells are named by their clients, and a request carries a name of its
own that comes back with the answer.  Every text is a name.
-/

namespace Notebook

/-- The name of a session. -/
structure SessionId where
  text : String
  deriving DecidableEq, Repr, Inhabited

/-- The name of a cell, unique in its session. -/
structure CellId where
  text : String
  deriving DecidableEq, Repr, Inhabited

/-- The name that pairs a request with its answer. -/
structure RequestId where
  text : String
  deriving DecidableEq, Repr, Inhabited

/-- What starts the topic of a session. -/
def topicStart : String := "session:"

/-- The topic that carries the traffic of a session. -/
def SessionId.topic (id : SessionId) : String :=
  topicStart ++ id.text

/-- The session of a topic; its name has at least one character. -/
def SessionId.ofTopic? (topic : String) : Option SessionId :=
  if topicStart.toList.isPrefixOf topic.toList then
    match topic.toList.drop topicStart.toList.length with
    | [] => none
    | name => some ⟨String.ofList name⟩
  else none

/-- The one process that a cell may have running. -/
structure ProcessKey where
  session : SessionId
  cell : CellId
  deriving DecidableEq, Repr, Inhabited

/-- The text that shows a key. -/
def ProcessKey.text (key : ProcessKey) : String :=
  key.session.text ++ "/" ++ key.cell.text

end Notebook
