import QuailServer.Library.History
import QuailServer.StreamSessions
import QuailServer.WebTransportServer

set_option autoImplicit false

namespace QuailServer.WebTransportServer
open HeaderBlock WebTransport ServerStream ServerBackend

def registrations (log : List Entry) : List (Str × Callback) :=
  log.filterMap fun
    | .on path callback => some (path, callback)
    | _ => none

def effects (id : StreamId) (log : List Entry) : List Effect :=
  log.filterMap fun
    | .request id' effect => if id' = id then some effect else none
    | _ => none

def callbacks (id : StreamId) (log : List Entry) : List (Option Callback) :=
  log.filterMap fun
    | .callback found transport => if transport.session = id then some found else none
    | _ => none

def sessions (x : StreamId) (log : List Entry) : List StreamId :=
  log.filterMap fun
    | .arrived id x' => if x' = x then some id else none
    | _ => none

def received (x : StreamId) (log : List Entry) : Str :=
  log.flatMap fun
    | .received x' data => if x' = x then data else []
    | _ => []

def messages (x : StreamId) (log : List Entry) : Str :=
  log.flatMap fun
    | .message (some _) x' data => if x' = x then data else []
    | _ => []

def Answers (q : Platform) (registered : List (Str × Callback)) (id : StreamId)
    (headers : Http2HeaderBlock) (response : WebTransportResponse) : Prop :=
  match headers.find ":path" with
  | none => response.responseHeaders.find ":status" = some ("400" : Str) ∧ response.visitor = none
  | some path =>
    if q.gurlPath path ∈ registered.map Prod.fst then
      response.responseHeaders.find ":status" = some ("200" : Str) ∧
        response.visitor = some ((QuitConverter.new id).connect (q.gurlPath path))
    else response.responseHeaders.find ":status" = some ("404" : Str) ∧ response.visitor = none

/-- A request gets the answer of the registrations before it. A callback is the first one
    registered for the path of an accepted session, after the headers of its response. A message
    goes to the session that its stream has, with the next bytes of that stream. -/
def Permitted (q : Platform) (before : List Entry) : Entry → Prop
  | .request id (.processWebTransportRequest headers response) =>
    Answers q (registrations before) id headers response
  | .callback found transport => ∃ headers response path callback,
    (headers, response) ∈ processed (effects transport.session before) ∧
    response.visitor.isSome = true ∧
    .writeHeaders .response response.responseHeaders false ∈ effects transport.session before ∧
    headers.find ":path" = some path ∧
    FirstWrite.firstWrite (registrations before) (q.gurlPath path) = some callback ∧
    found = some callback
  | .message transport x data => ∃ id,
    transport = some ⟨id⟩ ∧ sessions x before = [id] ∧ messages x before ++ data = received x before
  | _ => True

section Append
variable (id x : StreamId) (t u : List Entry)

@[simp] theorem registrations_append :
    registrations (t ++ u) = registrations t ++ registrations u := List.filterMap_append

@[simp] theorem effects_append : effects id (t ++ u) = effects id t ++ effects id u :=
  List.filterMap_append

@[simp] theorem callbacks_append : callbacks id (t ++ u) = callbacks id t ++ callbacks id u :=
  List.filterMap_append

@[simp] theorem sessions_append : sessions x (t ++ u) = sessions x t ++ sessions x u :=
  List.filterMap_append

@[simp] theorem received_append : received x (t ++ u) = received x t ++ received x u :=
  List.flatMap_append

@[simp] theorem messages_append : messages x (t ++ u) = messages x t ++ messages x u :=
  List.flatMap_append

end Append

section Requests
variable (i id x : StreamId) (out : List Effect)

@[simp] theorem registrations_request : registrations (out.map (.request i)) = [] := by
  simp [registrations]

@[simp] theorem callbacks_request : callbacks id (out.map (.request i)) = [] := by
  simp [callbacks]

@[simp] theorem sessions_request : sessions x (out.map (.request i)) = [] := by
  simp [sessions]

@[simp] theorem received_request : received x (out.map (.request i)) = [] := by
  simp [received]

@[simp] theorem messages_request : messages x (out.map (.request i)) = [] := by
  simp [messages]

theorem effects_request : effects id (out.map (.request i)) = if i = id then out else [] := by
  unfold effects
  rw [List.filterMap_map]
  by_cases h : i = id <;> simp [h]

end Requests
end QuailServer.WebTransportServer
