import BrickTrace.Core.BuiltEvents
import BrickTrace.Protocol.EventCodec
import BrickTrace.Server.Store

/-!
# Sync messages on the wire

The bodies that a client and the server exchange.  A receiver takes the fields it knows out
of a body, so a body may hold others, and one of an older server has no cursors.
-/

set_option autoImplicit false

namespace BrickTrace

open Json

structure PushEventsRequest where
  events : List TraceEvent

section Messages
variable (forms : TextForms)

def encodeEvents (events : List TraceEvent) : Json :=
  .array (events.map (TraceEvent.encode forms))

def encodeUuids (ids : List Uuid) : Json := .array (ids.map fun id => .string id.text)

def PushEventsRequest.message (request : PushEventsRequest) : Record where
  fields := [("events", some (encodeEvents forms request.events))]
  distinct := by simp

def PushEventsRequest.encode (request : PushEventsRequest) : Json := (request.message forms).json

def PushEventsRequest.decode : Json → Option PushEventsRequest := decodeRecord do
  return { events := ← required "events" (decodeArray (TraceEvent.decode forms)) }

def PushEventsResponse.message (response : PushEventsResponse) : Record where
  fields := [("accepted_event_ids", some (encodeUuids response.acceptedEventIds)),
    ("duplicate_event_ids", some (encodeUuids response.duplicateEventIds))]
  distinct := by simp

def PushEventsResponse.encode (response : PushEventsResponse) : Json := response.message.json

def PushEventsResponse.decode : Json → Option PushEventsResponse := decodeRecord do
  return {
    acceptedEventIds := ← required "accepted_event_ids" (decodeArray (decodeRead forms.readUuid))
    duplicateEventIds :=
      ← required "duplicate_event_ids" (decodeArray (decodeRead forms.readUuid)) }

/-- A cursor that there is none of is left out. -/
def ListEventsResponse.message (response : ListEventsResponse) : Record where
  fields := [("events", some (encodeEvents forms response.events)),
    ("cursor", response.cursor.map .string), ("next_cursor", response.nextCursor.map .string)]
  distinct := by simp

def ListEventsResponse.encode (response : ListEventsResponse) : Json :=
  (response.message forms).json

def ListEventsResponse.decode : Json → Option ListEventsResponse := decodeRecord do
  return {
    events := ← required "events" (decodeArray (TraceEvent.decode forms))
    cursor := ← defaulted "cursor" (decodeNullable decodeString) none
    nextCursor := ← defaulted "next_cursor" (decodeNullable decodeString) none }

variable {forms}

theorem decode_encodeEvents {events : List TraceEvent}
    (readable : ∀ event ∈ events, event.Readable forms) :
    decodeArray (TraceEvent.decode forms) (encodeEvents forms events) = some events :=
  mapM_map_encode fun event member => TraceEvent.decode_encode (readable event member)

theorem decode_encodeUuids {ids : List Uuid}
    (readable : ∀ id ∈ ids, forms.readUuid id.text = some id) :
    decodeArray (decodeRead forms.readUuid) (encodeUuids ids) = some ids :=
  @mapM_map_encode _ (decodeRead forms.readUuid) (fun id : Uuid => .string id.text) _ readable

theorem defaultedIn_cursor {entries : List (String × Json)} {name : String}
    {cursor : Option String} (held : entries.lookup name = cursor.map .string) :
    defaultedIn entries name (decodeNullable decodeString) none = some cursor :=
  defaultedIn_nullable_of_found held inverse_string.decodeNullable_encode

end Messages

def sessionListing : ListEventsResponse := ⟨[sessionInMission], none, some "1"⟩

end BrickTrace
