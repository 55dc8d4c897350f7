/-
# Events as an XML document

The document that operator tools read: one element an event, with its fields as
elements of their own. Text is escaped in elements and attributes alike, so no content
of a message is markup. A message without a body says so in place of it.

Key definitions: `Xml.escape`, `Event.xml`, `Event.xmlDocument`.
-/
import TraceBacklog.Event

namespace TraceBacklog

namespace Xml

/-- A character as content or in an attribute. -/
def escapeChar (c : Char) : List Char :=
  match c with
  | '&' => "&amp;".toList
  | '<' => "&lt;".toList
  | '>' => "&gt;".toList
  | '"' => "&quot;".toList
  | '\'' => "&apos;".toList
  | _ => [c]

def escape (s : String) : List Char := s.toList.flatMap escapeChar

def indent (n : Nat) : List Char := List.replicate n ' '

/-- An element with text content. -/
def element (name : String) (content : List Char) : List Char :=
  '<' :: name.toList ++ '>' :: content ++ "</".toList ++ name.toList ++ ['>']

/-- An attribute with a space before it. -/
def attr (name : String) (value : String) : List Char :=
  ' ' :: name.toList ++ "=\"".toList ++ escape value ++ ['"']

end Xml

namespace Event

/-- The element of an event. -/
def tag : String := "backlogTracerEventMessage"

/-- The lines of one header. -/
def headerXml (key : String) (h : HeaderSnapshot) : List Char :=
  "<header".toList ++ Xml.attr "key" key ++ Xml.attr "type" h.kind ++ '>' ::
    Xml.escape h.value ++ "</header>".toList

/-- The line of the body. -/
def bodyXml (m : Snapshot) : List Char :=
  match m.body with
  | some text =>
    "<body".toList ++ Xml.attr "type" m.bodyType ++ '>' :: Xml.escape text ++
      "</body>".toList
  | none => "<body>[Body is null]</body>".toList

/-- The lines of the headers; without headers there are none. -/
def headersXml (pad : List Char) (headers : KeyMap String HeaderSnapshot) : List (List Char) :=
  if headers.isEmpty then []
  else
    [pad ++ "<headers>".toList] ++
      headers.entries.map (fun h => pad ++ ' ' :: ' ' :: headerXml h.1 h.2) ++
      [pad ++ "</headers>".toList]

/-- The lines of the fields before the message. -/
def fieldsXml (stamp : Stamp) (e : Event) : List (List Char) :=
  [Xml.element "uid" (toString e.traceId.toNat).toList,
    Xml.element "timestamp" (stamp e.timestamp)] ++
  (match e.routeId with
    | none => []
    | some id => [Xml.element "routeId" (Xml.escape id)]) ++
  [Xml.element "toNode" (Xml.escape e.toNode),
    Xml.element "firstInRoute" (Json.boolChars e.firstInRoute),
    Xml.element "exchangeId" (Xml.escape e.exchangeId)]

/-- The lines of an event, indented by `depth` spaces. -/
def xmlLines (stamp : Stamp) (depth : Nat) (e : Event) : List (List Char) :=
  let pad := Xml.indent depth
  let inner := Xml.indent (depth + 2)
  let deep := Xml.indent (depth + 4)
  [pad ++ '<' :: tag.toList ++ ['>']] ++
    (e.fieldsXml stamp).map (inner ++ ·) ++
    [inner ++ "<message".toList ++ Xml.attr "exchangeId" e.exchangeId ++ ['>']] ++
    headersXml deep e.message.headers ++
    [deep ++ bodyXml e.message, inner ++ "</message>".toList,
      pad ++ "</".toList ++ tag.toList ++ ['>']]

def xmlWith (stamp : Stamp) (depth : Nat) (e : Event) : List Char :=
  joinLines (e.xmlLines stamp depth)

/-- The text of an event, indented by `depth` spaces. -/
def xml (depth : Nat) (e : Event) : List Char := e.xmlWith Timestamp.millisChars depth

def xmlDocumentWith (stamp : Stamp) (events : List Event) : List Char :=
  '<' :: tag.toList ++ "s>".toList ++
    events.flatMap (fun e => '\n' :: e.xmlWith stamp 2) ++
    "\n</".toList ++ tag.toList ++ "s>".toList

/-- The document of a list of events. -/
def xmlDocument (events : List Event) : List Char := xmlDocumentWith Timestamp.millisChars events

end Event

end TraceBacklog
