import Notebook.Service.Bridge
import Notebook.Service.Framing

/-!
# Service instances at the other end

On a stage every launched instance is played by somebody who says bytes, ends its
output or stops listening.  `Stage.settle` lets bridge and instances work until nothing
moves: requests are written, output is read and reports are queued as long as there is
room for them.
-/

set_option autoImplicit false

namespace Notebook

/-- An instance as seen from its own side. -/
structure Player where
  /-- How far the bridge has read the output. -/
  reader : Framing.Reader
  /-- Frames that were read and wait to be taken. -/
  backlog : List Json
  /-- How the output has ended. -/
  ending : Option StopReason
  /-- The output can still be written. -/
  speaking : Bool
  /-- The input is still read. -/
  listening : Bool
  /-- The bridge still reads the output. -/
  heard : Bool
  deriving Inhabited

/-- What an instance notices. -/
inductive Sight where
  | launched (generation : Nat)
  | request (generation : Nat) (request : Request)
  | inputClosed (generation : Nat)
  deriving DecidableEq, Repr, Inhabited

/-- All played instances. -/
structure Stage where
  players : Table Nat Player
  /-- How many deeds of the bridge have arrived. -/
  arrived : Nat
  deriving Inhabited

namespace Player

/-- An instance right after its launch. -/
def fresh : Player :=
  ⟨.start, [], none, true, true, true⟩

/-- The reason why reading ends. -/
def stopReason : Framing.Ending → StopReason
  | .clean => .exited
  | .broken problem => .failed problem.message

/-- Frames that were read move to the backlog; a problem ends the output. -/
def advance (p : Player) : Player :=
  let p := { p with
    backlog := p.backlog ++ p.reader.newest.reverse
    reader := { p.reader with newest := [] } }
  match p.ending, p.reader.phase with
  | none, .failed problem => { p with ending := some (.failed problem.message) }
  | _, _ => p

/-- Output is written. -/
def say (p : Player) (bytes : ByteArray) : Player :=
  if p.ending.isSome then p else { p with reader := p.reader.take bytes }.advance

/-- The output ends. -/
def endOutput (p : Player) : Player :=
  let p := { p with speaking := false }
  if p.ending.isSome then p
  else
    let (values, ending) := p.reader.close
    { p with
      backlog := p.backlog ++ values
      reader := { p.reader with newest := [] }
      ending := some (stopReason ending) }

end Player

namespace Stage

/-- The empty stage. -/
def empty : Stage :=
  ⟨.empty, 0⟩

/-- Changes the player of an instance. -/
def change (s : Stage) (generation : Nat) (f : Player → Player) : Stage :=
  match s.players.find? generation with
  | some p => { s with players := s.players.set generation (f p) }
  | none => s

/-! ## Writing -/

/-- An instance notices a deed of the bridge. -/
def notice (s : Stage) (b : Bridge) (deed : Deed) : Stage × Bridge × List Sight :=
  match deed with
  | .launched generation =>
    ({ s with players := s.players.set generation .fresh }, b, [.launched generation])
  | .queued generation request =>
    match s.players.find? generation with
    | some p =>
      if p.listening then (s, b, [.request generation request])
      else (s, b.apply (.breaks generation), [])
    | none => (s, b, [])
  | .released generation =>
    match s.players.find? generation with
    | some p =>
      (s.change generation fun p => { p with heard := false, backlog := [] }, b,
        if p.listening then [.inputClosed generation] else [])
    | none => (s, b, [])

/-- Whether a deed is noticed at once; all others wait for the writer. -/
def isLaunch : Deed → Bool
  | .launched _ => true
  | _ => false

/-- Notices deeds in order. -/
def noticeAll (s : Stage) (b : Bridge) : List Deed → Stage × Bridge × List Sight
  | [] => (s, b, [])
  | deed :: rest =>
    let (s, b, first) := s.notice b deed
    let (s, b, others) := noticeAll s b rest
    (s, b, first ++ others)

/-- Notices all deeds that are new. -/
def catchUp (s : Stage) (b : Bridge) : Stage × Bridge × List Sight :=
  let deeds := (b.trace.take (b.trace.length - s.arrived)).reverse
  let s := { s with arrived := b.trace.length }
  s.noticeAll b (deeds.filter isLaunch ++ deeds.filter fun deed => !isLaunch deed)

/-! ## Reading -/

/-- Whether a frame needs room among the reports. -/
def isReport (frame : Json) : Bool :=
  match Incoming.ofJson? frame with
  | some (.event ..) => true
  | _ => false

/-- Takes frames of an instance as long as there is room. -/
def takeFrames (generation : Nat) (b : Bridge) : List Json → Bridge × List Json
  | [] => (b, [])
  | frame :: rest =>
    if isReport frame && Bridge.reportCapacity ≤ b.reports.length then (b, frame :: rest)
    else takeFrames generation (b.apply (.frame generation frame)) rest

/-- Takes the output of one instance. -/
def listen (b : Bridge) (generation : Nat) (p : Player) : Bridge × Player :=
  if p.heard then
    let (b, backlog) := takeFrames generation b p.backlog
    let p := { p with backlog }
    match p.backlog, p.ending with
    | [], some reason =>
      let b := (b.apply (.dies generation)).apply (.forgets generation)
      if b.reports.length < Bridge.reportCapacity then
        (b.apply (.reports generation reason), { p with heard := false })
      else (b, p)
    | _, _ => (b, p)
  else (b, p)

/-- Takes the output of several instances. -/
def listenAll (s : Stage) (b : Bridge) : List (Nat × Player) → Stage × Bridge
  | [] => (s, b)
  | (generation, p) :: rest =>
    let (b, p) := listen b generation p
    listenAll { s with players := s.players.set generation p } b rest

/-- Lets bridge and instances work until nothing moves. -/
def settle (s : Stage) (b : Bridge) : Stage × Bridge × List Sight :=
  let (s, b, sights) := s.catchUp b
  let (s, b) := s.listenAll b s.players.entries
  (s, b, sights)

/-! ## Playing -/

/-- The instance that was launched last. -/
def latest (s : Stage) : Nat :=
  s.players.keys.foldl max 0

/-- Says bytes on an instance; the answer says whether its output was open. -/
def say (s : Stage) (generation : Nat) (bytes : ByteArray) : Bool × Stage :=
  match s.players.find? generation with
  | some p => if p.speaking then (true, s.change generation (·.say bytes)) else (false, s)
  | none => (false, s)

/-- Ends the output of an instance; the answer says whether it was open. -/
def endOutput (s : Stage) (generation : Nat) : Bool × Stage :=
  match s.players.find? generation with
  | some p => if p.speaking then (true, s.change generation Player.endOutput) else (false, s)
  | none => (false, s)

/-- Stops listening; the answer says whether there is such an instance. -/
def endInput (s : Stage) (generation : Nat) : Bool × Stage :=
  match s.players.find? generation with
  | some _ => (true, s.change generation fun p => { p with listening := false })
  | none => (false, s)

/-- The response that an instance gives to a request. -/
def response (number : Nat) (body : Json) : Json :=
  Json.ofFields
    [("type", .string "response"), ("request_seq", .nat number), ("success", .bool true),
     ("body", body)]

/-- A value with its size in front. -/
def withLength (value : Json) : String :=
  let text := value.text
  s!"Content-Length: {text.utf8ByteSize}\r\n\r\n" ++ text

end Stage
end Notebook
