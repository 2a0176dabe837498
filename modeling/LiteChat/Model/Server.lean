import LiteChat.Model.FriendManager
import LiteChat.Model.MessageManager

/-!
# The server

`DispatchRequest`, the two ways a connection ends, the accept loop's body and the heartbeat scan.

A request is what `Json::Reader` made of the body. The acting user is assembled from it and from
the session (`identify`), and every field is read outside the `try` block, so a field of the wrong
type ends the connection through the handler's `catch` (`failConnection`).

`Server.step` is the server as one event at a time drives it: each event runs to its end on the
environment's choices. `Server.workers` is the same code as threads, for statements about what
happens between the operations of different threads.
-/

namespace LiteChat

namespace Server

open LiteChat.Action

variable (P : Platform)

def maxConnections : Int := 128

/-! ## Requests -/

/-- `if(node.isMember(key)) … = node[key].asString()`. -/
def stringField (node : Json) (key : String) : Except JsonException Str := do
  if ← node.isMember (bytes key) then
    (← node.get (bytes key)).asString
  else return []

/-- `if(node.isMember("count")) … = node["count"].asInt()`. -/
def countField (node : Json) (garbage : Int) : Except JsonException Int := do
  if ← node.isMember (bytes "count") then
    (← node.get (bytes "count")).asInt
  else return garbage

/-- The type of a request and the value that carries its fields. -/
def header (root : Json) : Except JsonException (Str × Json) := do
  let type ← (← root.get (bytes "type")).asString
  let dataNode ← root.get (bytes "data")
  return (type, if dataNode.isNull then root else dataNode)

/-- The fields of a request; `garbage` is what `count` holds before anything is assigned. -/
def readRequest (type : Str) (clientSocket : Socket) (garbage : Int) (node : Json) :
    Except JsonException Request := do
  let username ← stringField node "username"
  let password ← stringField node "password"
  let newUsername ← stringField node "newUsername"
  let newPassword ← stringField node "newPassword"
  let verifyPassword ← stringField node "verifyPassword"
  let targetUsername ← stringField node "targetUsername"
  let content ← stringField node "content"
  let count ← countField node garbage
  return { type := type, username := username, password := password,
           newUsername := newUsername, newPassword := newPassword,
           verifyPassword := verifyPassword, targetUsername := targetUsername,
           content := content, count := count, clientSocket := clientSocket }

/-- The request as the user `username` makes it. A name in the body is the target, if no other
is given. -/
def actingAs (request : Request) (username : Str) : Request :=
  { request with
    username := username
    targetUsername :=
      if request.username ≠ [] ∧ request.targetUsername = [] then request.username
      else request.targetUsername }

/-- The session of a connection decides who acts, if somebody is logged in there. -/
def identify (clientSocket : Socket) (request : Request) : Action Request := do
  match ← getSession clientSocket with
  | none => return request
  | some session => do
    if (← getUsername session) = [] then
      return request
    let username ← getUsername session
    return actingAs request username

/-- The `LOGIN` branch. -/
def serveLogin (request : Request) : Action Response := do
  let response ← UserManager.handleLogin P request
  if response.code = 0 then
    FriendManager.cacheFriendList request.username
    MessageManager.pushOfflineMessages request.username
  return response

/-- The `if … else if …` over the request types. -/
def serve (request : Request) : Action Response :=
  if request.type = bytes "REGISTER" then UserManager.handleRegister P request
  else if request.type = bytes "LOGIN" then serveLogin P request
  else if request.type = bytes "UPDATE_USER" then UserManager.handleUpdateUser P request
  else if request.type = bytes "QUERY_STATUS" then UserManager.handleQueryStatus request
  else if request.type = bytes "ADD_FRIEND" then FriendManager.handleAddFriend request
  else if request.type = bytes "DEL_FRIEND" then FriendManager.handleDeleteFriend request
  else if request.type = bytes "FRIEND_LIST" then FriendManager.handleFriendList request
  else if request.type = bytes "FRIEND_STATUS" then FriendManager.handleFriendStatus request
  else if request.type = bytes "QUERY_FRIEND" then FriendManager.handleQueryFriend request
  else if request.type = bytes "SEND_MSG" then MessageManager.handleSendMessage request
  else if request.type = bytes "HISTORY_MSG" then MessageManager.handleHistoryMessages request
  else if request.type = bytes "HEARTBEAT" then pure ⟨0, bytes "心跳正常", none⟩
  else pure ⟨4002, bytes "未知的请求类型", none⟩

def responseFrame (type : Str) (response : Response) : Frame :=
  .json (.obj
    ([(bytes "type", .str (type ++ bytes "_RESPONSE")),
      (bytes "code", .int response.code),
      (bytes "msg", .str response.msg)] ++
     match response.data with
     | some data => [(bytes "data", data)]
     | none => []))

def parseError : Frame :=
  .text (bytes "\x7b\"type\":\"ERROR\",\"code\":4001,\"msg\":\"JSON解析失败\"\x7d")

/-- `GetSession`, then `UpdateHeartbeat` on what it found. -/
def refresh (clientSocket : Socket) : Action Unit := do
  match ← getSession clientSocket with
  | none => pure ()
  | some session => updateHeartbeat session

/-- Answer a request; the exception is one that no `catch` of this function catches. The request
as it was served and its response are returned so that statements can speak of them. -/
def dispatchRequest (clientSocket : Socket) (parsed : Option Json) :
    Action (Except JsonException (Option (Request × Response))) := do
  match parsed with
  | none => do
    let _ ← sendData clientSocket parseError
    return .ok none
  | some root =>
    match header root with
    | .error e => return .error e
    | .ok (type, node) => do
      refresh clientSocket
      let garbage ← uninitialised
      match readRequest type clientSocket garbage node with
      | .error e => return .error e
      | .ok request => do
        let request ← identify clientSocket request
        let response ← serve P request
        let _ ← sendData clientSocket (responseFrame type response)
        return .ok (some (request, response))

/-! ## The end of a connection -/

/-- What `HandleClient` and `HeartbeatCheckThread` do for the user of a session that ends. The
name is read anew each time. -/
def farewell (session : SessionPtr) : Action Unit := do
  let username ← getUsername session
  let _ ← UserManager.updateUserOnlineStatus username false
  let username ← getUsername session
  UserManager.notifyFriendsStatusChange username .offline
  let username ← getUsername session
  FriendManager.removeFriendCache username

/-- `HandleClient`, after its loop. -/
def endConnection (clientSocket : Socket) : Action Unit := do
  match ← getSession clientSocket with
  | none => close clientSocket
  | some session => do
    if (← getUsername session) ≠ [] then
      farewell session
    removeSession clientSocket
    addConnections (-1)
    close clientSocket

/-- `HandleClient`, in its `catch`; `HandleClientException` comes first. -/
def failConnection (clientSocket : Socket) : Action Unit := do
  close clientSocket
  match ← getSession clientSocket with
  | none => pure ()
  | some session => do
    if (← getUsername session) ≠ [] then
      let username ← getUsername session
      let _ ← UserManager.updateUserOnlineStatus username false
    removeSession clientSocket
    addConnections (-1)

/-- `HandleClient`, for one request. -/
def handleData (clientSocket : Socket) (parsed : Option Json) :
    Action (Option (Request × Response)) := do
  match ← dispatchRequest P clientSocket parsed with
  | .ok served => return served
  | .error _ => do
    failConnection clientSocket
    return none

/-! ## The other threads -/

def busy : Frame :=
  .text (bytes "\x7b\"type\":\"ERROR\",\"code\":5003,\"msg\":\"服务器繁忙\"\x7d")

/-- `AcceptConnections`, for one connection. -/
def acceptConnection (clientSocket : Socket) : Action Unit := do
  accept clientSocket
  if maxConnections ≤ (← loadConnections) then
    let _ ← sendData clientSocket busy
    close clientSocket
  else
    addSession clientSocket
    addConnections 1

/-- What a scan does with a session that has been idle for too long. -/
def expire (clientSocket : Socket) (session : SessionPtr) : Action Unit := do
  farewell session
  shutdown clientSocket
  removeSession clientSocket
  addConnections (-1)

def heartbeatCheckEach (currentTime : Nat) : List (Socket × SessionPtr) → Action Unit
  | [] => pure ()
  | (clientSocket, session) :: sessions => do
    if ← getIsConnected session then
      if (← getUsername session) ≠ [] then
        let lastHeartbeat ← getLastHeartbeat session
        if 600 < currentTime - lastHeartbeat then
          expire clientSocket session
    heartbeatCheckEach currentTime sessions

/-- `HeartbeatCheckThread`, for one round. -/
def heartbeatCheck : Action Unit := do
  let sessions ← getAllSessions
  let currentTime ← time
  heartbeatCheckEach currentTime sessions

/-! ## Threads -/

/-- `AcceptConnections`, on the descriptors that `accept` returns. -/
def acceptConnections : List Socket → Action Unit
  | [] => pure ()
  | clientSocket :: clientSockets => do
    acceptConnection clientSocket
    acceptConnections clientSockets

/-- `HandleClient`, on what `ReceiveData` returns until the stream ends. -/
def handleClient (clientSocket : Socket) : List (Option Json) → Action Unit
  | [] => endConnection clientSocket
  | parsed :: received => do
    match ← dispatchRequest P clientSocket parsed with
    | .ok _ => handleClient clientSocket received
    | .error _ => failConnection clientSocket

/-- `HeartbeatCheckThread`, for so many rounds. -/
def heartbeatCheckThread : Nat → Action Unit
  | 0 => pure ()
  | rounds + 1 => do
    heartbeatCheck
    heartbeatCheckThread rounds

/-- The threads of a server: the accept loop, the tasks of the pool, and the heartbeat check. -/
inductive Worker (κ : Type)
  | accepting
  | handling (k : κ)
  | checking
  deriving DecidableEq

/-- What the threads are given to do. -/
structure Work (κ : Type) where
  accepted : List Socket
  clientSocket : κ → Socket
  received : κ → List (Option Json)
  rounds : Nat

def workers {κ : Type} (work : Work κ) : Worker κ → Action Unit
  | .accepting => acceptConnections work.accepted
  | .handling k => handleClient P (work.clientSocket k) (work.received k)
  | .checking => heartbeatCheckThread work.rounds

/-! ## One event at a time -/

inductive Event
  | accept (clientSocket : Socket)
  | request (clientSocket : Socket) (parsed : Option Json)
  | hangup (clientSocket : Socket)
  | heartbeatScan

/-- `accept` returns a descriptor that is not in use, and only a descriptor in use has a thread
that receives on it. -/
def Event.Enabled (w : World P) : Event → Prop
  | .accept c => c ∉ w.openSockets
  | .request c _ => c ∈ w.openSockets
  | .hangup c => c ∈ w.openSockets
  | .heartbeatScan => True

instance (w : World P) (e : Event) : Decidable (e.Enabled P w) := by
  cases e <;> unfold Event.Enabled <;> infer_instance

def Event.action : Event → Action (Option (Request × Response))
  | .accept c => do
    acceptConnection c
    return none
  | .request c parsed => handleData P c parsed
  | .hangup c => do
    endConnection c
    return none
  | .heartbeatScan => do
    heartbeatCheck
    return none

variable {P}

/-- One event, from its first operation to its last; what was served, and the world after it. An
event that cannot happen changes nothing. -/
def step (w : World P) (e : Event) (cs : List Choice) : Option (Request × Response) × World P :=
  if e.Enabled P w then (e.action P).run cs w else (none, w)

/-- The world after an event. -/
def next (w : World P) (e : Event × List Choice) : World P := (step w e.1 e.2).2

end Server

/-! ## A platform to run the model on

`utf8mb4_unicode_ci` as far as ASCII goes, and the digests and dates that the runs below need. -/

def asciiLower (b : UInt8) : UInt8 := if 65 ≤ b ∧ b ≤ 90 then b + 32 else b

def asciiCi : Platform where
  weight u := ((u.map asciiLower).reverse.dropWhile (· = 32)).reverse
  md5 password :=
    if password = bytes "secret" then bytes "5ebe2294ecd0e0f08eab7690d2a6ee69"
    else if password = bytes "qwerty" then bytes "d8578edf8458ce06fbc5bb76a58c5ca4"
    else bytes "d41d8cd98f00b204e9800998ecf8427e"
  datetime _ := bytes "1970-01-01 00:00:00"

/-- A flat request body with string fields. -/
def flatBody (fields : List (String × String)) : Option Json :=
  some (.obj (fields.map fun field => (bytes field.1, .str (bytes field.2))))

end LiteChat
